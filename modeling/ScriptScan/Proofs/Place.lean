import ScriptScan.Run
import ScriptScan.Proofs.Answer

/-!
# Places

A place in a source is told by the text in front of it: `lineAt` and `Settings.positionAt` number
it, and the cursor there is `Cursor.behind`. From such a cursor a scan answers by what stands behind
the longest gap (`Cursor.scan_lexeme`, `Cursor.scan_trouble`), so all that a run does is told by
texts, lexeme by lexeme (`Cursor.reading_induction`). Gaps make no difference to what a run finds
behind them (`Cursor.run_gap`).
-/

namespace ScriptScan

open Trivia (Gap Stops piece?)
open Reading (Reads)

namespace Settings

def positionAt (s : Settings) (front : List Char) : Position :=
  ⟨UInt32.ofNat (Text.width front), s.file⟩

/-- The token over the lexeme `text` behind `front`. -/
def tokenAt (s : Settings) (kind : Kind) (front text : List Char) : Token :=
  ⟨kind, String.ofList text, kind.valueOf text, lineAt front, lineAt (front ++ text),
    ⟨s.positionAt front, s.positionAt (front ++ text)⟩⟩

def faultAt (s : Settings) (cause : Cause) (front : List Char) : Fault :=
  ⟨cause, lineAt front, s.positionAt front⟩

end Settings

theorem Settings.offset_positionAt (s : Settings) (front : List Char)
    (h : Text.width front < UInt32.size) :
    (s.positionAt front).offset.toNat = Text.width front :=
  UInt32.toNat_ofNat_of_lt' h

theorem toNat_lineAt {front : List Char} (h : Text.width front + 1 < UInt32.size) :
    (lineAt front).toNat = 1 + front.count '\n' := by
  have : front.count '\n' ≤ _ := List.count_le_length
  have := Text.length_le_width front
  have hlt : 1 + front.count '\n' < UInt32.size := by omega
  exact UInt32.toNat_ofNat_of_lt' hlt

namespace Token

def startsAt (t : Token) : Nat := t.span.start.offset.toNat

def stopsAt (t : Token) : Nat := t.span.stop.offset.toNat

end Token

namespace Step

variable (s : Settings) (r : Reading) (start stop : Cursor)

theorem outcome_ofReading (hs : s.lenient = false) :
    (ofReading s r start stop).outcome = match r.finding with
      | .lexeme kind value => .token (s.token kind value (String.ofList r.text) start stop)
      | .trouble cause => .fault (s.fault cause start) := by
  unfold ofReading
  cases r.finding with
  | lexeme => rfl
  | trouble cause =>
    rw [hs]
    cases cause <;> rfl

theorem cursor_ofReading : (ofReading s r start stop).cursor = stop := by
  unfold ofReading
  split
  · rfl
  · split <;> rfl

theorem outcome_ofReading_ne : (ofReading s r start stop).outcome ≠ .insideCharacter := by
  unfold ofReading
  split
  · exact Outcome.noConfusion
  · split <;> exact Outcome.noConfusion

end Step

namespace Cursor

theorem exists_reads (cs : List Char) : ∃ gap r, cs = gap ++ (r.text ++ r.rest)
    ∧ Gap gap (r.text ++ r.rest) ∧ Reads (r.text ++ r.rest) r := by
  obtain ⟨gap, rest, rfl, hg, hn⟩ := Trivia.exists_gap cs
  refine ⟨gap, Reading.of rest, ?_, ?_, ?_⟩ <;> rw [Reading.text_append_rest]
  · exact hg
  · exact Reading.reads_of hn

section Scan

variable (front : List Char) (s : Settings) {gap : List Char}

theorem scan_lexeme {kind : Kind} {text rest : List Char} (hg : Gap gap (text ++ rest))
    (h : kind.Form text) (hr : Stops (Reading.grows text) rest) :
    (behind front (gap ++ (text ++ rest))).scan s =
      .found (s.tokenAt kind (front ++ gap) text) (behind (front ++ gap ++ text) rest) :=
  scan_behind front s hg (.lexeme kind text rest h hr)

/-- A trouble fails a scan unless it is an open literal or comment and the scan is lenient. -/
theorem scan_trouble {cause : Cause} {cs text rest : List Char} (hg : Gap gap cs)
    (h : Reads cs ⟨.trouble cause, text, rest⟩)
    (hc : s.lenient = true → cause ≠ .openString ∧ cause ≠ .openComment) :
    (behind front (gap ++ cs)).scan s =
      .failed (s.faultAt cause (front ++ gap)) (Text.width (front ++ gap))
        (Reading.stop ⟨.trouble cause, text, rest⟩ (front ++ gap)) := by
  rw [scan_behind front s hg h]
  unfold Step.ofReading
  dsimp only
  split
  · exact absurd rfl (hc ‹_›).1
  · exact absurd rfl (hc ‹_›).2
  · rfl

theorem scan_openString {body : List Char} (hg : Gap gap ('"' :: body)) (hb : '"' ∉ body)
    (hs : s.lenient = true) :
    (behind front (gap ++ '"' :: body)).scan s =
      .after (.stringCut (lineAt (front ++ gap)))
        (.found { s.tokenAt .string (front ++ gap) ('"' :: body) with
            value := some (.string (String.ofList body)) }
          (behind (front ++ gap ++ '"' :: body) [])) := by
  rw [scan_behind front s hg (.openString hb), Step.ofReading, hs]
  rfl

theorem scan_openComment {body : List Char} (hg : Gap gap ('/' :: '*' :: body))
    (hb : ¬ ['*', '/'] <:+: body) (hs : s.lenient = true) :
    (behind front (gap ++ '/' :: '*' :: body)).scan s =
      .after (.commentCut (lineAt (front ++ gap)))
        (.found (s.tokenAt .endOfInput (front ++ gap ++ '/' :: '*' :: body) [])
          (behind (front ++ gap ++ '/' :: '*' :: body) [])) := by
  rw [scan_behind front s hg (.openComment hb), Step.ofReading, hs, Settings.tokenAt,
    List.append_nil]
  rfl

end Scan

/-- A token leaves a cursor between two characters. -/
theorem exists_cursor_scan {front ahead : List Char} {s : Settings} {t : Token}
    (h : ((behind front ahead).scan s).outcome = .token t) :
    ∃ front' ahead', ((behind front ahead).scan s).cursor = behind front' ahead' ∧
      front' ++ ahead' = front ++ ahead := by
  obtain ⟨gap, r, rfl, hg, hr⟩ := exists_reads ahead
  rw [scan_behind front s hg hr] at h ⊢
  refine ⟨front ++ gap ++ r.text, r.rest, ?_, by simp⟩
  rw [Step.cursor_ofReading, Reading.stop]
  split
  · rename_i hfinding
    rw [Step.ofReading, hfinding] at h
    cases h
  · rfl

theorem outcome_scan_ne (front ahead : List Char) (s : Settings) :
    ((behind front ahead).scan s).outcome ≠ .insideCharacter := by
  obtain ⟨gap, r, rfl, hg, hr⟩ := exists_reads ahead
  rw [scan_behind front s hg hr]
  exact Step.outcome_ofReading_ne s r _ _

/-- A run from between two characters ends with the end of the input or a fault. -/
theorem broken_run (front ahead : List Char) (s : Settings) :
    ((behind front ahead).run s).broken = false := by
  rcases h : ((behind front ahead).scan s).outcome with t | f | _
  · rcases ht : t.isEnd with _ | _
    · have hlt := left_scan_lt h ht
      obtain ⟨front', ahead', hcursor, -⟩ := exists_cursor_scan h
      rw [run_of_token h ht, hcursor]
      exact broken_run front' ahead' s
    · rw [run_of_end h ht]
  · rw [run_of_fault h]
  · exact absurd h (outcome_scan_ne front ahead s)
termination_by (behind front ahead).left
decreasing_by rwa [← hcursor]

section Run

variable (front : List Char) (s : Settings) {gap : List Char}

/-- A run that begins in front of a gap is the run from behind it. -/
theorem run_gap {rest : List Char} (hg : Gap gap rest) :
    (behind front (gap ++ rest)).run s = (behind (front ++ gap) rest).run s := by
  have hscan : (behind front (gap ++ rest)).scan s = (behind (front ++ gap) rest).scan s := by
    simp only [scan, skipTrivia_gap front hg]
  rcases h : ((behind (front ++ gap) rest).scan s).outcome with t | f | _
  · rcases ht : t.isEnd with _ | _
    · rw [run_of_token h ht, run_of_token (by rw [hscan, h]) ht, hscan]
    · rw [run_of_end h ht, run_of_end (by rw [hscan, h]) ht, hscan]
  · rw [run_of_fault h, run_of_fault (by rw [hscan, h]), hscan]
  · rw [run_of_inside h, run_of_inside (by rw [hscan, h]), hscan]

theorem run_lexeme {kind : Kind} {text rest : List Char} (hg : Gap gap (text ++ rest))
    (h : kind.Form text) (hr : Stops (Reading.grows text) rest) (hk : kind ≠ .endOfInput) :
    (behind front (gap ++ (text ++ rest))).run s =
      ((behind (front ++ gap ++ text) rest).run s).behind [s.tokenAt kind (front ++ gap) text]
        [.scanned (s.tokenAt kind (front ++ gap) text)] := by
  have hscan := scan_lexeme front s hg h hr
  have hend : (s.tokenAt kind (front ++ gap) text).isEnd = false := beq_false_of_ne hk
  rw [run_of_token (by rw [hscan]; rfl) hend, hscan]
  rfl

theorem run_finish (hg : Gap gap []) :
    (behind front gap).run s =
      ⟨[s.tokenAt .endOfInput (front ++ gap) []], none, false, behind (front ++ gap) [],
        [.scanned (s.tokenAt .endOfInput (front ++ gap) [])]⟩ := by
  have hscan := @scan_lexeme front s gap .endOfInput [] [] hg rfl (by simp [Stops])
  simp only [List.append_nil] at hscan
  rw [run_of_end (by rw [hscan]; rfl) rfl, hscan]
  rfl

theorem run_trouble {cause : Cause} {cs text rest : List Char} (hg : Gap gap cs)
    (h : Reads cs ⟨.trouble cause, text, rest⟩)
    (hc : s.lenient = true → cause ≠ .openString ∧ cause ≠ .openComment) :
    (behind front (gap ++ cs)).run s =
      ⟨[], some (s.faultAt cause (front ++ gap)), false,
        Reading.stop ⟨.trouble cause, text, rest⟩ (front ++ gap),
        [.failed (s.faultAt cause (front ++ gap)) (Text.width (front ++ gap))]⟩ := by
  have hscan := scan_trouble front s hg h hc
  rw [run_of_fault (by rw [hscan]; rfl), hscan]
  rfl

end Run

/-- What holds behind every lexeme if it holds behind the next, at the end of the source, and
wherever a trouble stands, holds everywhere. -/
theorem reading_induction {motive : List Char → List Char → Prop}
    (lexeme : ∀ front gap kind text rest, Gap gap (text ++ rest) → Kind.Form kind text →
      Stops (Reading.grows text) rest → kind ≠ .endOfInput →
      motive (front ++ gap ++ text) rest → motive front (gap ++ (text ++ rest)))
    (finish : ∀ front gap, Gap gap [] → motive front gap)
    (trouble : ∀ front gap cause cs text rest, Gap gap cs →
      Reads cs ⟨.trouble cause, text, rest⟩ → motive front (gap ++ cs))
    (front ahead : List Char) : motive front ahead := by
  obtain ⟨gap, cs, hahead, hg, hn⟩ := Trivia.exists_gap ahead
  have hr := Reading.reads_of hn
  generalize Reading.of cs = r at hr
  rw [hahead]
  cases hr with
  | lexeme kind text rest h hstops =>
    by_cases hk : kind = .endOfInput
    · subst hk
      cases h
      rw [Reading.eq_nil_of_grows_nil hstops] at hg ⊢
      simpa using finish front gap hg
    · have : 0 < text.length := List.length_pos_iff.2 (Reading.ne_nil_of_form h hk)
      exact lexeme front gap kind text rest hg h hstops hk
        (reading_induction lexeme finish trouble _ _)
  | openString h => exact trouble _ _ _ _ _ _ hg (.openString h)
  | openComment h => exact trouble _ _ _ _ _ _ hg (.openComment h)
  | tooLarge hne hd hr hl => exact trouble _ _ _ _ _ _ hg (.tooLarge hne hd hr hl)
  | unexpected h hs => exact trouble _ _ _ _ _ _ hg (.unexpected h hs)
termination_by ahead.length
decreasing_by
  simp only [hahead, List.length_append]
  omega

end Cursor

namespace Run

variable (s : Settings) (source : String)

theorem of_eq : of s source = (Cursor.behind [] source.toList).run s := by
  rw [of, Cursor.start_eq]

theorem broken_of : (of s source).broken = false := by
  rw [of_eq]
  exact Cursor.broken_run [] source.toList s

theorem outcomes_of : (of s source).outcomes =
    (of s source).tokens.map .token ++ (of s source).fault.toList.map .fault := by
  rw [outcomes, broken_of]
  exact List.append_nil _

end Run

theorem tokenize_eq_ok_iff {source : String} {file : Option String} {ts : List Token} :
    tokenize source file = .ok ts ↔
      (Run.of (.named file false) source).fault = none ∧
        (Run.of (.named file false) source).tokens = ts := by
  rw [tokenize]
  split <;> simp_all

theorem tokenize_eq_error_iff {source : String} {file : Option String} {f : Fault} :
    tokenize source file = .error f ↔ (Run.of (.named file false) source).fault = some f := by
  rw [tokenize]
  split <;> simp_all

end ScriptScan
