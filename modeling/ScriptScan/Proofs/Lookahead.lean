import ScriptScan.Proofs.Bytes
import ScriptScan.Proofs.Lenient

/-!
# Looking ahead

Of what stands behind a lexeme a scan looks at one byte only. Sources with the same first `n` bytes
begin with the same characters, as far as these lie within the bytes (`Text.Agree.split`), and the
lexemes there that end in front of byte `n` are read alike (`Leads.of_agree`). So runs over such
sources find the same tokens as long as these end in front of byte `n`, whatever stands behind it
(`Run.tokens_stable`).
-/

namespace ScriptScan

/-! ## The same bytes -/

namespace Text

/-- Two texts have the same first `n` bytes, and no fewer. -/
structure Agree (n : Nat) (cs ds : List Char) : Prop where
  le_left : n ≤ width cs
  le_right : n ≤ width ds
  bytes_eq : (bytes cs).take n = (bytes ds).take n

theorem utf8EncodeChar_append_inj {c d : Char} {bs es : List UInt8}
    (h : String.utf8EncodeChar c ++ bs = String.utf8EncodeChar d ++ es) : c = d ∧ bs = es := by
  have hdecode := congrArg (fun l => l.toByteArray.utf8DecodeChar? 0) h
  simp only [List.toByteArray_append, ByteArray.utf8DecodeChar?_utf8EncodeChar_append,
    Option.some.injEq] at hdecode
  subst hdecode
  exact ⟨rfl, List.append_cancel_left h⟩

/-- The bytes of a text tell its characters. -/
theorem exists_append_of_bytes {front cs : List Char} {bs : List UInt8}
    (h : bytes cs = bytes front ++ bs) : ∃ rest, cs = front ++ rest ∧ bytes rest = bs := by
  induction front generalizing cs with
  | nil => exact ⟨cs, rfl, h⟩
  | cons c front ih =>
    rcases cs with _ | ⟨d, cs⟩
    · have hlen := congrArg List.length h
      have := c.utf8Size_pos
      simp [bytes] at hlen
      omega
    · rw [bytes_cons, bytes_cons, List.append_assoc] at h
      obtain ⟨rfl, htail⟩ := utf8EncodeChar_append_inj h
      obtain ⟨rest, rfl, hrest⟩ := ih htail
      exact ⟨rest, rfl, hrest⟩

namespace Agree

variable {n : Nat} {cs ds : List Char}

theorem symm (h : Agree n cs ds) : Agree n ds cs := ⟨h.le_right, h.le_left, h.bytes_eq.symm⟩

/-- Whole characters within the bytes are the same. -/
theorem split {front rest : List Char} (h : Agree n (front ++ rest) ds) (hn : width front ≤ n) :
    ∃ rest', ds = front ++ rest' ∧ Agree (n - width front) rest rest' := by
  obtain ⟨hleft, hright, hbytes⟩ := h
  have hfront := length_bytes front
  rw [width_append] at hleft
  rw [bytes_append, List.take_append, List.take_of_length_le (by omega), hfront] at hbytes
  have hds := (List.take_append_drop n (bytes ds)).symm
  rw [← hbytes, List.append_assoc] at hds
  obtain ⟨rest', rfl, hrest⟩ := exists_append_of_bytes hds
  rw [width_append] at hright
  refine ⟨rest', rfl, by omega, by omega, ?_⟩
  rw [hrest, List.take_left']
  rw [List.length_take, length_bytes]
  omega

/-- The next byte tells whether a one-byte character follows, and which. -/
theorem stops {p : Char → Bool} (hp : ∀ c, p c = true → c.utf8Size = 1) (h : Agree n cs ds)
    (hn : 0 < n) (hs : Trivia.Stops p cs) : Trivia.Stops p ds := by
  intro c hc
  obtain ⟨rest, rfl⟩ := List.head?_eq_some_iff.1 hc
  rw [Bool.eq_false_iff]
  intro hpc
  have hwidth : width [c] ≤ n := by
    rw [width_cons, width_nil, hp c hpc]
    omega
  obtain ⟨rest', rfl, -⟩ := h.symm.split hwidth
  rw [hs c rfl] at hpc
  cases hpc

end Agree

end Text

open Text (Agree)
open Trivia (Piece Gap Stops)
open Reading (Reads grows)

/-! ## The next lexeme -/

/-- Behind a gap, which completes some trivia, and the first character after it anything else may
stand. -/
theorem Trivia.Gap.congr {gap : List Char} {c : Char} {cs : List Char} (ds : List Char)
    (h : Gap gap (c :: cs)) : Gap gap (c :: ds) := by
  generalize hrest : c :: cs = rest at h
  induction h with
  | nil => exact .nil
  | @cons piece gap _ hp _ ih =>
    subst hrest
    refine .cons ?_ (ih rfl)
    cases hp with
    | blank hc => exact .blank hc
    | block hb => exact .block hb
    | line hb hr =>
      refine .line hb (Or.inr ?_)
      rcases gap with _ | ⟨d, gap⟩ <;> simpa using hr

theorem utf8Size_of_isWordPart {c : Char} (h : isWordPart c = true) : c.utf8Size = 1 :=
  Text.utf8Size_of_lt (lt_of_isWordPart h).1

/-- What lengthens a lexeme takes one byte. -/
theorem Reading.utf8Size_of_grows {kind : Kind} {text : List Char} (h : kind.Form text)
    (hk : kind ≠ .endOfInput) {c : Char} (hc : grows text c = true) : c.utf8Size = 1 := by
  rw [grows_iff h hk] at hc
  rcases hc with ⟨-, hc⟩ | ⟨-, hc⟩ | ⟨-, rfl⟩ | ⟨-, rfl | rfl⟩
  · exact utf8Size_of_isWordPart hc
  · exact utf8Size_of_isWordPart (by rw [isWordPart_eq, hc, Bool.or_true])
  all_goals rfl

/-- The next lexeme of a text, the trivia in front of it, and what is left. -/
structure Leads (ahead : List Char) (kind : Kind) (gap text rest : List Char) : Prop where
  eq : ahead = gap ++ (text ++ rest)
  gap : Gap gap (text ++ rest)
  form : kind.Form text
  stops : Stops (grows text) rest
  kind_ne : kind ≠ .endOfInput

/-- The next lexeme of a text ends in front of byte `n`. -/
def LeadsWithin (n : Nat) (ahead : List Char) : Prop :=
  ∃ kind gap text rest, Leads ahead kind gap text rest ∧ Text.width (gap ++ text) < n

namespace Leads

variable {n : Nat} {ahead ahead' gap text rest : List Char} {kind : Kind}

theorem of_agree (h : Leads ahead kind gap text rest) (hn : Text.width (gap ++ text) < n)
    (ha : Agree n ahead ahead') :
    ∃ rest', Leads ahead' kind gap text rest' ∧
      Agree (n - Text.width (gap ++ text)) rest rest' := by
  obtain ⟨rfl, hg, hform, hstops, hk⟩ := h
  rw [← List.append_assoc] at ha
  obtain ⟨rest', rfl, hrest⟩ := ha.split (Nat.le_of_lt hn)
  have hsize := fun c => @Reading.utf8Size_of_grows kind text hform hk c
  have hstops' := hrest.stops hsize (by omega) hstops
  obtain ⟨c, cs, rfl⟩ := List.exists_cons_of_ne_nil (Reading.ne_nil_of_form hform hk)
  exact ⟨rest', ⟨List.append_assoc _ _ _, hg.congr _, hform, hstops', hk⟩, hrest⟩

theorem length_lt (h : Leads ahead kind gap text rest) : rest.length < ahead.length := by
  have := List.length_pos_iff.2 (Reading.ne_nil_of_form h.form h.kind_ne)
  rw [h.eq, List.length_append, List.length_append]
  omega

theorem width_eq (h : Leads ahead kind gap text rest) :
    Text.width ahead = Text.width (gap ++ text) + Text.width rest := by
  rw [h.eq, ← List.append_assoc, Text.width_append]

theorem tokens_run (h : Leads ahead kind gap text rest) (front : List Char) (s : Settings) :
    ((Cursor.behind front ahead).run s).tokens = s.tokenAt kind (front ++ gap) text ::
      ((Cursor.behind (front ++ (gap ++ text)) rest).run s).tokens := by
  obtain ⟨rfl, hg, hform, hstops, hk⟩ := h
  rw [Cursor.run_lexeme front s hg hform hstops hk, List.append_assoc]
  rfl

end Leads

theorem LeadsWithin.of_agree {n : Nat} {ahead ahead' : List Char} (h : LeadsWithin n ahead)
    (ha : Agree n ahead ahead') : LeadsWithin n ahead' := by
  obtain ⟨kind, gap, text, rest, hl, hn⟩ := h
  obtain ⟨rest', hl', -⟩ := hl.of_agree hn ha
  exact ⟨kind, gap, text, rest', hl', hn⟩

/-! ## Runs -/

namespace Cursor

variable (s : Settings)

theorem stopsAt_tokenAt (kind : Kind) (front text : List Char)
    (hfit : Text.width (front ++ text) < UInt32.size) :
    (s.tokenAt kind front text).stopsAt = Text.width (front ++ text) :=
  s.offset_positionAt (front ++ text) hfit

theorem stopsAt_endOfInput {source : List Char}
    (hfit : Text.width source < UInt32.size) :
    (s.tokenAt .endOfInput source []).stopsAt = Text.width source := by
  have hstop := stopsAt_tokenAt s .endOfInput source [] (by rwa [List.append_nil])
  rwa [List.append_nil] at hstop

/-- Where a trouble is next, what a run finds takes all that is ahead. -/
theorem stopsAt_of_trouble {front gap cs text rest : List Char} {cause : Cause}
    (hg : Gap gap cs) (hr : Reads cs ⟨.trouble cause, text, rest⟩)
    (hfit : Text.width (front ++ gap ++ cs) < UInt32.size) :
    ∀ t ∈ ((behind front (gap ++ cs)).run s).tokens,
      t.stopsAt = Text.width (front ++ gap ++ cs) := by
  have hend := stopsAt_endOfInput s hfit
  rcases hl : s.lenient with _ | _
  · rw [run_trouble front s hg hr (by simp [hl])]
    simp
  · cases hr with
    | openString hb =>
      rw [(run_openString hl hg hb).2]
      exact List.forall_mem_cons.2
        ⟨stopsAt_tokenAt s .string _ _ hfit, List.forall_mem_singleton.2 hend⟩
    | openComment hb =>
      rw [(run_openComment hl hg hb).2]
      exact List.forall_mem_singleton.2 hend
    | tooLarge hne hd hstops hlarge =>
      rw [run_trouble front s hg (.tooLarge hne hd hstops hlarge) (by simp)]
      simp
    | unexpected hb hc =>
      rw [run_trouble front s hg (.unexpected hb hc) (by simp)]
      simp

theorem stopsAt_of_finish {front gap : List Char} (hg : Gap gap [])
    (hfit : Text.width (front ++ gap) < UInt32.size) :
    ∀ t ∈ ((behind front gap).run s).tokens, t.stopsAt = Text.width (front ++ gap) := by
  rw [run_finish front s hg]
  exact List.forall_mem_singleton.2 (stopsAt_endOfInput s hfit)

theorem le_stopsAt (front ahead : List Char)
    (hfit : Text.width (front ++ ahead) < UInt32.size) :
    ∀ t ∈ ((behind front ahead).run s).tokens, Text.width front ≤ t.stopsAt := by
  induction front, ahead using reading_induction with
  | lexeme front gap kind text rest hg hform hstops hk ih =>
    have ih := ih (by simpa using hfit)
    have hstop := stopsAt_tokenAt s kind (front ++ gap) text (by simp at hfit ⊢; omega)
    rw [run_lexeme front s hg hform hstops hk]
    simp only [Text.width_append] at hstop ih
    refine List.forall_mem_cons.2 ⟨by omega, fun t ht => ?_⟩
    have := ih t ht
    omega
  | finish front gap hg =>
    intro t ht
    rw [stopsAt_of_finish s hg hfit t ht]
    simp
  | trouble front gap cause cs text rest hg hr =>
    intro t ht
    rw [← List.append_assoc] at hfit
    rw [stopsAt_of_trouble s hg hr hfit t ht, List.append_assoc, Text.width_append]
    omega

/-- Where the next lexeme does not end in front of byte `n`, nothing does that a run finds. -/
theorem le_stopsAt_of_not_leadsWithin (front ahead : List Char) {n : Nat}
    (hfit : Text.width (front ++ ahead) < UInt32.size) (hn : n ≤ Text.width ahead)
    (hlate : ¬ LeadsWithin n ahead) :
    ∀ t ∈ ((behind front ahead).run s).tokens, Text.width front + n ≤ t.stopsAt := by
  induction front, ahead using reading_induction with
  | lexeme front gap kind text rest hg hform hstops hk _ =>
    have hge : n ≤ Text.width (gap ++ text) := Nat.le_of_not_lt fun hlt =>
      hlate ⟨kind, gap, text, rest, ⟨rfl, hg, hform, hstops, hk⟩, hlt⟩
    have hstop := stopsAt_tokenAt s kind (front ++ gap) text (by simp at hfit ⊢; omega)
    have hrest := le_stopsAt s (front ++ gap ++ text) rest (by simpa using hfit)
    rw [run_lexeme front s hg hform hstops hk]
    simp only [Text.width_append] at hstop hrest hge
    refine List.forall_mem_cons.2 ⟨by omega, fun t ht => ?_⟩
    have := hrest t ht
    omega
  | finish front gap hg =>
    intro t ht
    rw [stopsAt_of_finish s hg hfit t ht, Text.width_append]
    omega
  | trouble front gap cause cs text rest hg hr =>
    intro t ht
    rw [← List.append_assoc] at hfit
    rw [stopsAt_of_trouble s hg hr hfit t ht, List.append_assoc, Text.width_append]
    omega

/-- Two runs over texts with the same next `n` bytes find the same that ends within these. -/
theorem tokens_of_agree (front : List Char) {ahead ahead' : List Char} {n : Nat}
    (h : Agree n ahead ahead') (hfit : Text.width (front ++ ahead) < UInt32.size)
    (hfit' : Text.width (front ++ ahead') < UInt32.size) :
    ∃ ts us vs, ((behind front ahead).run s).tokens = ts ++ us ∧
      ((behind front ahead').run s).tokens = ts ++ vs ∧
        (∀ t ∈ ts, t.stopsAt < Text.width front + n) ∧
          (∀ t ∈ us, Text.width front + n ≤ t.stopsAt) ∧
            ∀ t ∈ vs, Text.width front + n ≤ t.stopsAt := by
  by_cases hn : LeadsWithin n ahead
  · obtain ⟨kind, gap, text, rest, hl, hlt⟩ := hn
    obtain ⟨rest', hl', hrest⟩ := hl.of_agree hlt h
    have hwidth : Text.width (front ++ (gap ++ text)) + (n - Text.width (gap ++ text)) =
        Text.width front + n := by
      rw [Text.width_append]
      omega
    rw [Text.width_append, hl.width_eq] at hfit
    rw [Text.width_append, hl'.width_eq] at hfit'
    have hstop := stopsAt_tokenAt s kind (front ++ gap) text
      (by rw [List.append_assoc, Text.width_append]; omega)
    obtain ⟨ts, us, vs, hts, hts', hearly, hlate⟩ :=
      tokens_of_agree (front ++ (gap ++ text)) hrest
        (by rw [Text.width_append, Text.width_append front]; omega)
        (by rw [Text.width_append, Text.width_append front]; omega)
    rw [hwidth] at hearly hlate
    refine ⟨s.tokenAt kind (front ++ gap) text :: ts, us, vs, ?_, ?_, ?_, hlate⟩
    · rw [hl.tokens_run, hts, List.cons_append]
    · rw [hl'.tokens_run, hts', List.cons_append]
    · refine List.forall_mem_cons.2 ⟨?_, hearly⟩
      rw [hstop, List.append_assoc, Text.width_append]
      omega
  · have hn' : ¬ LeadsWithin n ahead' := fun hn' => hn (hn'.of_agree h.symm)
    exact ⟨[], _, _, rfl, rfl, by simp,
      le_stopsAt_of_not_leadsWithin s front ahead hfit h.le_left hn,
      le_stopsAt_of_not_leadsWithin s front ahead' hfit' h.le_right hn'⟩
termination_by ahead.length
decreasing_by exact hl.length_lt

end Cursor

/-- Two runs over sources with the same first `n` bytes begin with the same tokens, up to the first
that ends at byte `n` or behind it, whatever stands there. -/
theorem Run.tokens_stable (s : Settings) {a b : String} {n : Nat}
    (ha : a.utf8ByteSize + 1 < UInt32.size) (hb : b.utf8ByteSize + 1 < UInt32.size)
    (hna : n ≤ a.utf8ByteSize) (hnb : n ≤ b.utf8ByteSize)
    (hbytes : a.toByteArray.data.toList.take n = b.toByteArray.data.toList.take n) :
    ∃ ts us vs, (Run.of s a).tokens = ts ++ us ∧ (Run.of s b).tokens = ts ++ vs ∧
      (∀ t ∈ ts, t.stopsAt < n) ∧ (∀ t ∈ us, n ≤ t.stopsAt) ∧ ∀ t ∈ vs, n ≤ t.stopsAt := by
  rw [← Text.width_toList] at ha hb hna hnb
  rw [← Text.bytes_toList, ← Text.bytes_toList] at hbytes
  have htokens := Cursor.tokens_of_agree s [] ⟨hna, hnb, hbytes⟩
    (by rw [List.nil_append]; omega) (by rw [List.nil_append]; omega)
  rw [Text.width_nil, Nat.zero_add] at htokens
  rw [Run.of_eq, Run.of_eq]
  exact htokens

/-- Byte 4 is the second of a character, and no byte in front of it tells the two apart. -/
theorem Run.tokens_stable_inside :
    let s := Settings.named none true
    let a := "if=é/*"
    let b := "if=è==\"☃"
    let early : List Token :=
      [⟨.keyword .ifKw, "if", none, 1, 1, ⟨⟨0, "shell"⟩, ⟨2, "shell"⟩⟩⟩,
        ⟨.assignment, "=", none, 1, 1, ⟨⟨2, "shell"⟩, ⟨3, "shell"⟩⟩⟩]
    a.utf8ByteSize + 1 < UInt32.size ∧ b.utf8ByteSize + 1 < UInt32.size ∧
      4 ≤ a.utf8ByteSize ∧ 4 ≤ b.utf8ByteSize ∧
      a.toByteArray.data.toList.take 4 = b.toByteArray.data.toList.take 4 ∧
      (Run.of s a).tokens = early ∧
      ∃ ts us vs, (Run.of s a).tokens = ts ++ us ∧ (Run.of s b).tokens = ts ++ vs ∧
        (∀ t ∈ ts, t.stopsAt < 4) ∧ (∀ t ∈ us, 4 ≤ t.stopsAt) ∧ ∀ t ∈ vs, 4 ≤ t.stopsAt := by
  intro s a b early
  have ha : a.utf8ByteSize + 1 < UInt32.size := by decide +kernel
  have hb : b.utf8ByteSize + 1 < UInt32.size := by decide +kernel
  have hna : 4 ≤ a.utf8ByteSize := by decide +kernel
  have hnb : 4 ≤ b.utf8ByteSize := by decide +kernel
  have hbytes : a.toByteArray.data.toList.take 4 = b.toByteArray.data.toList.take 4 := by
    decide +kernel
  exact ⟨ha, hb, hna, hnb, hbytes, by decide +kernel, Run.tokens_stable s ha hb hna hnb hbytes⟩

end ScriptScan
