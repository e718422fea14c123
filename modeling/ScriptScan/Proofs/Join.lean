import ScriptScan.Proofs.Shift

/-!
# Joined texts

Two texts with a line feed between them are scanned one after the other. Whatever is complete at the
end of a text stays so where a line feed follows (`Trivia.Gap.join`, `Reading.Reads.join`): nothing
begun in the first text goes on in the second but an open string literal or block comment. So a run
over both that passes the first is its run and then the one over the second, moved
(`Cursor.run_join`), and a fault in the first that is not such an opening stays the fault
(`Cursor.run_join_of_fault`).
-/

namespace ScriptScan

open Trivia (Piece Gap Stops)
open Reading (Reads)

/-! ## At the seam -/

section Seam

variable {rest : List Char} (more : List Char)

theorem Trivia.Piece.join {piece : List Char} (h : Piece piece rest) :
    Piece piece (rest ++ '\n' :: more) := by
  cases h with
  | blank hc => exact .blank hc
  | block hb => exact .block hb
  | line hb hr =>
    refine .line hb (Or.inr ?_)
    rcases hr with rfl | hr
    · rfl
    · rw [List.head?_append, hr, Option.some_or]

theorem Trivia.Gap.join {gap : List Char} (h : Gap gap rest) : Gap gap (rest ++ '\n' :: more) := by
  induction h with
  | nil => exact .nil
  | cons hp _ ih =>
    have hjoin := hp.join more
    rw [List.append_assoc] at hjoin
    exact .cons hjoin ih

theorem Trivia.Stops.join {p : Char → Bool} (h : Stops p rest) (hp : p '\n' = false) :
    Stops p (rest ++ '\n' :: more) := by
  rcases rest with _ | ⟨d, rest⟩
  · rintro c ⟨⟩
    exact hp
  · exact h

/-- No lexeme goes on with a line feed. -/
theorem Reading.grows_lineFeed {kind : Kind} {text : List Char} (h : kind.Form text)
    (hk : kind ≠ .endOfInput) : grows text '\n' = false := by
  rw [Bool.eq_false_iff, Ne, grows_iff h hk]
  simp +decide

theorem Reading.Reads.join {cause : Cause} {cs text : List Char}
    (h : Reads cs ⟨.trouble cause, text, rest⟩) (hs : cause ≠ .openString)
    (hc : cause ≠ .openComment) :
    Reads (cs ++ '\n' :: more) ⟨.trouble cause, text, rest ++ '\n' :: more⟩ := by
  cases h with
  | openString => exact absurd rfl hs
  | openComment => exact absurd rfl hc
  | tooLarge hne hd hr hl =>
    rw [List.append_assoc]
    exact .tooLarge hne hd (hr.join more rfl) hl
  | unexpected hb hsp => exact .unexpected hb hsp

end Seam

/-! ## Runs -/

namespace Cursor

/-- A lexeme is found as without the line feed somewhere behind it. -/
theorem run_lexeme_join (front : List Char) (s : Settings) (more : List Char) {kind : Kind}
    {gap text rest : List Char} (hg : Gap gap (text ++ rest)) (h : kind.Form text)
    (hr : Stops (Reading.grows text) rest) (hk : kind ≠ .endOfInput) :
    (behind front (gap ++ (text ++ rest) ++ '\n' :: more)).run s =
      ((behind (front ++ gap ++ text) (rest ++ '\n' :: more)).run s).behind
        [s.tokenAt kind (front ++ gap) text] [.scanned (s.tokenAt kind (front ++ gap) text)] := by
  have hgap := hg.join more
  have hstops := hr.join more (Reading.grows_lineFeed h hk)
  rw [List.append_assoc] at hgap
  rw [List.append_assoc, List.append_assoc, run_lexeme front s hgap h hstops hk]

section Strict

variable {s : Settings} (hstrict : s.lenient = false) (more : List Char)
include hstrict

/-- A run that finds the end of the input behind `ahead` goes on behind the line feed instead. -/
theorem run_join (front ahead : List Char) (h : ((behind front ahead).run s).fault = none) :
    ∃ ts e, ((behind front ahead).run s).tokens = ts ++ [e] ∧ e.isEnd = true ∧
      (behind front (ahead ++ '\n' :: more)).run s =
        ((behind (front ++ ahead ++ ['\n']) more).run s).behind ts (ts.map .scanned) := by
  induction front, ahead using reading_induction with
  | lexeme front gap kind text rest hg hform hstops hk ih =>
    rw [run_lexeme front s hg hform hstops hk] at h ⊢
    obtain ⟨ts, e, htokens, he, hjoin⟩ := ih h
    refine ⟨s.tokenAt kind (front ++ gap) text :: ts, e, congrArg _ htokens, he, ?_⟩
    rw [run_lexeme_join front s more hg hform hstops hk, hjoin]
    simp only [List.append_assoc]
    rfl
  | finish front gap hg =>
    -- the line feed ends a line comment in the gap, and is a blank of its own behind it
    have hgap : Gap gap ('\n' :: more) := hg.join more
    have hfeed : Gap ['\n'] more := .cons (.blank (by decide)) .nil
    rw [run_finish front s hg]
    refine ⟨[], s.tokenAt .endOfInput (front ++ gap) [], rfl, rfl, ?_⟩
    rw [run_gap front s hgap]
    show (behind (front ++ gap) (['\n'] ++ more)).run s = _
    rw [run_gap (front ++ gap) s hfeed]
    rfl
  | trouble front gap cause cs text rest hg hr =>
    rw [run_trouble front s hg hr (by simp [hstrict])] at h
    cases h

/-- A fault stays the one where it stands if it is no opening that would find its end later. -/
theorem run_join_of_fault {f : Fault} (hs : f.cause ≠ .openString) (hc : f.cause ≠ .openComment)
    (front ahead : List Char) (h : ((behind front ahead).run s).fault = some f) :
    ((behind front (ahead ++ '\n' :: more)).run s).fault = some f := by
  induction front, ahead using reading_induction with
  | lexeme front gap kind text rest hg hform hstops hk ih =>
    rw [run_lexeme front s hg hform hstops hk] at h
    rw [run_lexeme_join front s more hg hform hstops hk]
    exact ih h
  | finish front gap hg =>
    rw [run_finish front s hg] at h
    cases h
  | trouble front gap cause cs text rest hg hr =>
    rw [run_trouble front s hg hr (by simp [hstrict])] at h
    obtain rfl : s.faultAt cause (front ++ gap) = f := Option.some.inj h
    rw [List.append_assoc,
      run_trouble front s (hg.join more) (hr.join more hs hc) (by simp [hstrict])]

end Strict

end Cursor

/-! ## Sources -/

theorem toList_join (a b : String) : (a ++ "\n" ++ b).toList = a.toList ++ '\n' :: b.toList := by
  simp

theorem width_join (a : String) : Text.width (a.toList ++ ['\n']) = a.utf8ByteSize + 1 := by
  rw [Text.width_append, Text.width_toList]
  rfl

theorem count_join (a : String) : (a.toList ++ ['\n']).count '\n' = 1 + a.toList.count '\n' := by
  rw [List.count_append, Nat.add_comm]
  rfl

theorem Run.of_join {s : Settings} (hstrict : s.lenient = false) {a : String}
    (h : (Run.of s a).fault = none) (b : String) :
    ∃ ts e, (Run.of s a).tokens = ts ++ [e] ∧ e.isEnd = true ∧
      Run.of s (a ++ "\n" ++ b) =
        ((Run.of s b).shift (a.toList ++ ['\n'])).behind ts (ts.map .scanned) := by
  rw [Run.of_eq] at h
  obtain ⟨ts, e, htokens, he, hjoin⟩ := Cursor.run_join hstrict b.toList [] a.toList h
  rw [← Run.of_eq] at htokens
  refine ⟨ts, e, htokens, he, ?_⟩
  rw [Run.of_eq, Run.of_eq, toList_join, ← Cursor.run_shift, hjoin, List.append_nil,
    List.nil_append]

/-- What a run finds in `b` is moved behind `a` and a line feed without being cut. -/
theorem Run.shiftExact_of {a b : String}
    (hfit : a.utf8ByteSize + b.utf8ByteSize + 2 < UInt32.size) (s : Settings) :
    (∀ t ∈ (Run.of s b).tokens,
        t.ShiftExact (a.utf8ByteSize + 1) (1 + a.toList.count '\n')) ∧
      ∀ f, (Run.of s b).fault = some f →
        f.ShiftExact (a.utf8ByteSize + 1) (1 + a.toList.count '\n') := by
  have hcount : a.toList.count '\n' ≤ a.utf8ByteSize := by
    rw [← Text.width_toList]
    exact Nat.le_trans List.count_le_length (Text.length_le_width _)
  have hlines : 1 + a.toList.count '\n' ≤ a.utf8ByteSize + 1 := by omega
  have hfit' : a.utf8ByteSize + 1 + b.utf8ByteSize + 1 < UInt32.size := by omega
  obtain ⟨n, hscans⟩ := Session.scans_start s b
  have hexact := @Session.shiftExact_of_mem_scans b _ _ hlines hfit' _ (.start s b) rfl n
  rw [hscans] at hexact
  refine ⟨?_, ?_⟩
  · intro t ht
    have hmem := List.mem_map_of_mem (f := Outcome.token) ht
    exact hexact (List.mem_append_left _ hmem)
  · intro f hf
    rw [hf] at hexact
    exact hexact (List.mem_append_right _ List.mem_cons_self)

/-- Two texts with a line feed between them are scanned one after the other: where the first is all
tokens, these and what the second gives, moved behind the first and the line feed; where it fails at
a character or a number, that. -/
theorem tokenize_join (a b : String) (file : Option String)
    (hfit : a.utf8ByteSize + b.utf8ByteSize + 2 < UInt32.size) :
    let bytes := a.utf8ByteSize + 1
    let lines := 1 + a.toList.count '\n'
    (∀ us, tokenize a file = .ok us → ∃ ts e, us = ts ++ [e] ∧ e.isEnd = true ∧
      (∀ vs, tokenize b file = .ok vs →
        tokenize (a ++ "\n" ++ b) file = .ok (ts ++ vs.map (Token.shift bytes lines)) ∧
          ∀ v ∈ vs, v.ShiftExact bytes lines) ∧
      ∀ g, tokenize b file = .error g →
        tokenize (a ++ "\n" ++ b) file = .error (g.shift bytes lines) ∧
          g.ShiftExact bytes lines) ∧
    ∀ f, tokenize a file = .error f →
      ((∃ c, f.cause = .unexpected c) ∨ ∃ digits, f.cause = .numberTooLarge digits) →
        tokenize (a ++ "\n" ++ b) file = .error f := by
  intro bytes lines
  have hstrict : (Settings.named file false).lenient = false := rfl
  obtain ⟨htokens, hfault⟩ := Run.shiftExact_of hfit (.named file false)
  refine ⟨?_, ?_⟩
  · intro us hus
    obtain ⟨hnone, rfl⟩ := tokenize_eq_ok_iff.1 hus
    obtain ⟨ts, e, hts, he, hjoin⟩ := Run.of_join hstrict hnone b
    refine ⟨ts, e, hts, he, ?_, ?_⟩
    · intro vs hvs
      obtain ⟨hb, rfl⟩ := tokenize_eq_ok_iff.1 hvs
      refine ⟨tokenize_eq_ok_iff.2 ?_, htokens⟩
      rw [hjoin]
      refine ⟨congrArg (Option.map _) hb, ?_⟩
      simp only [Run.behind, Run.shift, width_join, count_join, bytes, lines]
    · intro g hg
      rw [tokenize_eq_error_iff] at hg ⊢
      refine ⟨?_, hfault g hg⟩
      rw [hjoin]
      simp only [Run.behind, Run.shift, width_join, count_join, hg, Option.map_some, bytes, lines]
  · intro f hf hcause
    rw [tokenize_eq_error_iff, Run.of_eq] at hf ⊢
    have hs : f.cause ≠ .openString := by
      rcases hcause with ⟨c, hc⟩ | ⟨digits, hc⟩ <;> simp [hc]
    have hc : f.cause ≠ .openComment := by
      rcases hcause with ⟨c, hc⟩ | ⟨digits, hc⟩ <;> simp [hc]
    have hjoin := Cursor.run_join_of_fault hstrict b.toList hs hc [] a.toList hf
    rw [← toList_join] at hjoin
    exact hjoin

theorem tokenize_join_comment :
    let a := "x // 1"
    let b := "\"é\n\" ☃"
    let x : Token := ⟨.identifier, "x", none, 1, 1, ⟨⟨0, "shell"⟩, ⟨1, "shell"⟩⟩⟩
    let e : Token := ⟨.endOfInput, "", none, 1, 1, ⟨⟨6, "shell"⟩, ⟨6, "shell"⟩⟩⟩
    let f : Fault := ⟨.unexpected '☃', 2, ⟨6, "shell"⟩⟩
    a.utf8ByteSize + b.utf8ByteSize + 2 < UInt32.size ∧ tokenize a none = .ok [x, e] ∧
      tokenize b none = .error f ∧
      tokenize (a ++ "\n" ++ b) none = .error ⟨.unexpected '☃', 3, ⟨13, "shell"⟩⟩ ∧
      tokenize (b ++ "\n" ++ a) none = .error f := by
  intro a b x e f
  have hfit : a.utf8ByteSize + b.utf8ByteSize + 2 < UInt32.size := by decide +kernel
  have ha : tokenize a none = .ok [x, e] :=
    tokenize_eq_ok_iff.2 ⟨by decide +kernel, by decide +kernel⟩
  have hb : tokenize b none = .error f := tokenize_eq_error_iff.2 (by decide +kernel)
  have hshift : f.shift (a.utf8ByteSize + 1) (1 + a.toList.count '\n') =
      ⟨.unexpected '☃', 3, ⟨13, "shell"⟩⟩ := by decide +kernel
  obtain ⟨ts, -, -, -, -, herror⟩ := (tokenize_join a b none hfit).1 _ ha
  refine ⟨hfit, ha, hb, ?_, ?_⟩
  · rw [← hshift]
    exact (herror f hb).1
  · exact (tokenize_join b a none (by decide +kernel)).2 f hb (Or.inl ⟨'☃', rfl⟩)

end ScriptScan
