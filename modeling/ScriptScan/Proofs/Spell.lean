import ScriptScan.Proofs.Grammar
import ScriptScan.Proofs.Walk

/-!
# Symbols and reserved words at a cursor

Between two characters a cursor passes a symbol of one character or two as they are spelled
(`Cursor.symbol?_of_some`, `Cursor.symbolWithEquals_of_equals`). It takes the tail of a reserved
word exactly if that is the whole rest of the word ahead (`Cursor.keyword?_behind`).
-/

namespace ScriptScan

open Trivia (Stops)

theorem isWordPart_of_le {e : Char} (he : 128 ≤ e.toNat) : isWordPart e = false := by
  have hpast {d : Char} (hd : d.toNat < 128) : ¬ e.val ≤ d.val := fun hle =>
    absurd (Nat.le_trans he (UInt32.le_iff_toNat_le.1 hle)) (Nat.not_le.2 hd)
  have hscore : (e == '_') = false := beq_eq_false_iff_ne.2 (ne_of_high he (by decide))
  show (decide ('A'.val ≤ e.val ∧ e.val ≤ 'Z'.val) ||
    decide ('a'.val ≤ e.val) && decide (e.val ≤ 'z'.val) ||
    decide ('0'.val ≤ e.val) && decide (e.val ≤ '9'.val) || e == '_') = false
  rw [decide_eq_false fun h => hpast (by decide) h.2,
    decide_eq_false (hpast (d := 'z') (by decide)),
    decide_eq_false (hpast (d := '9') (by decide)), hscore, Bool.and_false, Bool.and_false]
  rfl

theorem isDigit_of_le {e : Char} (he : 128 ≤ e.toNat) : e.isDigit = false := by
  have h := isWordPart_of_le he
  rw [isWordPart_eq, Bool.or_eq_false_iff] at h
  exact h.2

theorem isWordStart_of_le {e : Char} (he : 128 ≤ e.toNat) : isWordStart e = false := by
  have h := isWordPart_of_le he
  rw [isWordPart_eq, Bool.or_eq_false_iff] at h
  exact h.1

/-- A character of a word takes one byte and is no line feed. -/
theorem lt_of_isWordPart {d : Char} (h : isWordPart d = true) : d.toNat < 128 ∧ d ≠ '\n' := by
  refine ⟨Nat.lt_of_not_le fun hle => ?_, ?_⟩
  · rw [isWordPart_of_le hle] at h
    cases h
  · rintro rfl
    exact absurd h (by decide)

theorem symbolKind?_of_le {e : Char} (he : 128 ≤ e.toNat) : symbolKind? e = none := by
  unfold symbolKind?
  split <;> first | rfl | exact absurd he (by decide)

namespace Cursor

variable (front : List Char) {rest : List Char}

/-! ## Symbols -/

theorem symbol?_of_none {c : Cursor} {d : Char} (h : symbolKind? d = none) :
    c.symbol? d = none := by
  unfold symbol?
  split
  · cases h
  · cases h
  · rw [h]
    rfl

theorem symbol?_of_some {d : Char} {kind : Kind} (h : symbolKind? d = some kind)
    (hr : Stops (Reading.grows [d]) rest) :
    (behind front rest).symbol? d = some (kind, behind front rest) := by
  have hshort (hd : d = '=' ∨ d = '!') : (behind front rest).peek? 0 ≠ some '=' := by
    refine mt (peek?_eq_some_iff front rest (by decide)).1 fun hhead => ?_
    rcases hd with rfl | rfl <;> exact absurd (hr _ hhead) (by decide)
  unfold symbol?
  split
  · cases h
    rw [symbolWithEquals, if_neg (hshort (Or.inl rfl))]
  · cases h
    rw [symbolWithEquals, if_neg (hshort (Or.inr rfl))]
  · rw [h]
    rfl

variable (rest) in
theorem symbolWithEquals_of_equals (short long : Kind) :
    (behind front ('=' :: rest)).symbolWithEquals short long =
      (long, behind (front ++ ['=']) rest) := by
  rw [symbolWithEquals, if_pos (peek?_of_lt front rest (by decide)),
    advance_one front rest (by decide) (by decide)]

/-! ## Reserved words -/

/-- The next character goes on with a word exactly if the next byte does. -/
theorem any_isWordPart_peek? :
    ((behind front rest).peek? 0).any isWordPart = rest.head?.any isWordPart := by
  rcases rest with _ | ⟨d, rest⟩
  · rw [peek?_nil]
    rfl
  · by_cases hd : d.toNat < 128
    · rw [peek?_of_lt front rest hd]
      rfl
    · have hle := Nat.le_of_not_lt hd
      obtain ⟨e, he, hle'⟩ := peek?_of_le front rest hle d.utf8Size_pos
      rw [he]
      exact (isWordPart_of_le hle').trans (isWordPart_of_le hle).symm

theorem spells_iff {word : List Char} (hw : ∀ d ∈ word, isWordPart d = true) :
    (behind front rest).spells word = true ↔ word <+: rest := by
  induction word generalizing front rest with
  | nil => simp [spells]
  | cons d word ih =>
    rw [List.forall_mem_cons] at hw
    obtain ⟨hlt, hn⟩ := lt_of_isWordPart hw.1
    rw [spells, Bool.and_eq_true, beq_iff_eq, peek?_eq_some_iff front rest hlt]
    constructor
    · rintro ⟨hhead, hspells⟩
      obtain ⟨tail, rfl⟩ := List.head?_eq_some_iff.1 hhead
      rw [advance_one front tail hlt hn, ih _ hw.2] at hspells
      exact List.cons_prefix_cons.2 ⟨rfl, hspells⟩
    · rintro ⟨tail, rfl⟩
      refine ⟨rfl, ?_⟩
      rw [List.cons_append, advance_one front _ hlt hn, ih _ hw.2]
      exact List.prefix_append word tail

/-- A suffix follows if it is the whole rest of the word ahead. -/
theorem followedBy_iff {suffix : String} (hs : ∀ d ∈ suffix.toList, isWordPart d = true) :
    (behind front rest).followedBy suffix = true ↔ suffix.toList = rest.takeWhile isWordPart := by
  have hfeed : '\n' ∉ suffix.toList := fun h => absurd (hs _ h) (by decide)
  rw [followedBy, Bool.and_eq_true, spells_iff front hs]
  constructor
  · rintro ⟨⟨tail, rfl⟩, hends⟩
    rw [← Text.width_toList, peek?_append front tail hfeed, any_isWordPart_peek?] at hends
    have htail : Stops isWordPart tail := by
      intro d hd
      simpa [hd] using hends
    rw [List.takeWhile_append_of_pos hs, htail.takeWhile, List.append_nil]
  · intro heq
    have hsplit : rest = suffix.toList ++ rest.dropWhile isWordPart := by
      rw [heq, List.takeWhile_append_dropWhile]
    have hstops := Trivia.stops_dropWhile isWordPart rest
    generalize rest.dropWhile isWordPart = tail at hsplit hstops
    subst hsplit
    refine ⟨List.prefix_append _ _, ?_⟩
    rw [← Text.width_toList, peek?_append front tail hfeed, any_isWordPart_peek?]
    rcases hhead : tail.head? with _ | d
    · rfl
    · simp [hstops d hhead]

variable (rest) in
theorem keyword?_behind {options : List (String × Kind)}
    (h : ∀ p ∈ options, ∀ d ∈ p.1.toList, isWordPart d = true) :
    (behind front rest).keyword? options =
      (options.find? fun p => p.1.toList == rest.takeWhile isWordPart).map fun p =>
        (p.2, behind (front ++ rest.takeWhile isWordPart) (rest.dropWhile isWordPart)) := by
  induction options with
  | nil => rfl
  | cons p options ih =>
    obtain ⟨suffix, kind⟩ := p
    have hs : ∀ d ∈ suffix.toList, isWordPart d = true := h _ List.mem_cons_self
    have hfeed : '\n' ∉ suffix.toList := fun hmem => absurd (hs _ hmem) (by decide)
    rw [keyword?]
    split <;> rename_i hfollows
    · have heq := (followedBy_iff front hs).1 hfollows
      have hstop := advance_behind front (rest.dropWhile isWordPart) hfeed
      rw [heq, List.takeWhile_append_dropWhile, ← heq, Text.width_toList] at hstop
      rw [List.find?_cons_of_pos (by simpa using heq), hstop, ← heq]
      rfl
    · have hne := mt (followedBy_iff front hs).2 hfollows
      rw [List.find?_cons_of_neg (by simpa using hne)]
      exact ih fun p hp => h p (List.mem_cons_of_mem _ hp)

end Cursor

end ScriptScan
