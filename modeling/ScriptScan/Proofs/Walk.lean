import ScriptScan.Lexeme
import ScriptScan.Proofs.Bytes
import ScriptScan.Proofs.Reading

/-!
# Walking over characters

A cursor walks over bytes, but where it stands between characters it walks like one that reads them
(`Cursor.behind`): a character below 128 is one byte and seen as itself, and one from 128 on takes
bytes each of which no reader treats otherwise than the next (`Cursor.eq_of_high`). So each loop
stops behind a text that is told by characters, with the lines counted that it passes.
-/

namespace ScriptScan

open Trivia (Gap Piece Stops piece?)

/-- The number of the line behind `front`. -/
def lineAt (front : List Char) : UInt32 := UInt32.ofNat (1 + front.count '\n')

theorem lineAt_append (front : List Char) {text : List Char} (hn : '\n' ∉ text) :
    lineAt (front ++ text) = lineAt front := by
  rw [lineAt, List.count_append, List.count_eq_zero_of_not_mem hn, Nat.add_zero]
  rfl

theorem lineAt_concat_lineFeed (front : List Char) :
    lineAt (front ++ ['\n']) = lineAt front + 1 := by
  rw [lineAt, List.count_append, ← Nat.add_assoc, UInt32.ofNat_add]
  rfl

theorem ne_of_high {d e : Char} (he : 128 ≤ e.toNat) (hd : d.toNat < 128) : e ≠ d := by
  rintro rfl
  exact Nat.not_le.2 hd he

namespace Cursor

/-- The cursor between two parts of a source. -/
def behind (front ahead : List Char) : Cursor :=
  ⟨String.ofList (front ++ ahead), Text.width front, lineAt front⟩

theorem start_eq (source : String) : start source = behind [] source.toList := by
  rw [behind, List.nil_append, String.ofList_toList]
  rfl

/-! ## Single moves -/

theorem peek?_advance (c : Cursor) (n m : Nat) : (c.advance n).peek? m = c.peek? (n + m) := by
  rw [peek?, peek?, advance, Nat.add_assoc]

variable (front rest : List Char) {d : Char}

theorem peek?_nil : (behind front []).peek? 0 = none :=
  Text.byte?_eq_none (by rw [behind, String.toList_ofList, List.append_nil])

theorem peek?_of_lt (hd : d.toNat < 128) : (behind front (d :: rest)).peek? 0 = some d :=
  Text.byte?_of_lt String.toList_ofList hd

theorem peek?_of_le (hd : 128 ≤ d.toNat) {k : Nat} (hk : k < d.utf8Size) :
    ∃ e, (behind front (d :: rest)).peek? k = some e ∧ 128 ≤ e.toNat :=
  Text.byte?_of_le String.toList_ofList hd hk

theorem peek?_eq_some_iff (hd : d.toNat < 128) :
    (behind front rest).peek? 0 = some d ↔ rest.head? = some d := by
  rcases rest with _ | ⟨c, rest⟩
  · rw [peek?_nil]
    rfl
  · by_cases hc : c.toNat < 128
    · rw [peek?_of_lt front rest hc]
      rfl
    · obtain ⟨e, he, hle⟩ := peek?_of_le front rest (Nat.le_of_not_lt hc) c.utf8Size_pos
      simp [he, ne_of_high hle hd, ne_of_high (Nat.le_of_not_lt hc) hd]

/-- A text without line feeds is passed as a number of bytes. -/
theorem advance_behind {text : List Char} (hn : '\n' ∉ text) :
    (behind front (text ++ rest)).advance (Text.width text) = behind (front ++ text) rest := by
  simp [behind, advance, lineAt_append front hn]

/-- What stands behind a text without line feeds is seen from in front of it. -/
theorem peek?_append {text : List Char} (hn : '\n' ∉ text) :
    (behind front (text ++ rest)).peek? (Text.width text) =
      (behind (front ++ text) rest).peek? 0 := by
  rw [← advance_behind front rest hn, peek?_advance, Nat.add_zero]

theorem advance_one (hd : d.toNat < 128) (hn : d ≠ '\n') :
    (behind front (d :: rest)).advance 1 = behind (front ++ [d]) rest := by
  have hfeed : '\n' ∉ [d] := by simpa using Ne.symm hn
  rw [← advance_behind front rest hfeed, Text.width_cons, Text.utf8Size_of_lt hd]
  rfl

theorem advance_two {e : Char} (hd : d.toNat < 128) (hn : d ≠ '\n') (he : e.toNat < 128)
    (hn' : e ≠ '\n') :
    (behind front (d :: e :: rest)).advance 2 = behind (front ++ [d, e]) rest := by
  have htwo := advance_one (front ++ [d]) rest he hn'
  rwa [← advance_one front (e :: rest) hd hn, List.append_assoc] at htwo

theorem peek?_one (hd : d.toNat < 128) (hn : d ≠ '\n') :
    (behind front (d :: rest)).peek? 1 = (behind (front ++ [d]) rest).peek? 0 := by
  rw [← advance_one front rest hd hn, peek?_advance]

theorem peek?_one_of_lt {e : Char} (hd : d.toNat < 128) (hn : d ≠ '\n') (he : e.toNat < 128) :
    (behind front (d :: e :: rest)).peek? 1 = some e := by
  rw [peek?_one front _ hd hn, peek?_of_lt _ rest he]

theorem nextLine_behind :
    (behind front ('\n' :: rest)).nextLine = behind (front ++ ['\n']) rest := by
  simp [behind, nextLine, lineAt_concat_lineFeed]
  rfl

/-- What a byte from 128 on does not change is not changed by a character from there on. -/
theorem eq_of_high {α : Type} {f : Cursor → α}
    (hf : ∀ c e, c.peek? 0 = some e → 128 ≤ e.toNat → f c = f (c.advance 1))
    (hd : 128 ≤ d.toNat) :
    f (behind front (d :: rest)) = f (behind (front ++ [d]) rest) := by
  have hstep : ∀ k ≤ d.utf8Size,
      f (behind front (d :: rest)) = f ((behind front (d :: rest)).advance k) := by
    intro k hk
    induction k with
    | zero => rfl
    | succ k ih =>
      obtain ⟨e, he, hle⟩ := peek?_of_le front rest hd hk
      rw [ih (Nat.le_of_lt hk), hf _ e (by rwa [peek?_advance]) hle]
      rfl
  have hfeed : '\n' ∉ [d] := by simpa using (ne_of_high hd (by decide)).symm
  rw [hstep _ (Nat.le_refl _), ← advance_behind front rest hfeed, Text.width_cons, Text.width_nil,
    Nat.add_zero]
  rfl

/-! ## Loops -/

theorem passWhile_of_some {p : Char → Bool} {c : Cursor} {d : Char} (h : c.peek? 0 = some d) :
    c.passWhile p = if p d then (c.advance 1).passWhile p else c := by
  rw [passWhile]
  split <;> rename_i h' <;> rw [h] at h' <;> cases h'
  rfl

theorem passWhile_of_none {p : Char → Bool} {c : Cursor} (h : c.peek? 0 = none) :
    c.passWhile p = c := by
  rw [passWhile]
  split <;> rename_i h' <;> cases h.symm.trans h'
  rfl

/-- If all bytes from 128 on have a property alike, characters with it are passed, as long as no
line feed is one of them. -/
theorem passWhile_behind {p : Char → Bool} {b : Bool} (hp : ∀ e, 128 ≤ e.toNat → p e = b)
    (hn : p '\n' = false) (front ahead : List Char) :
    (behind front ahead).passWhile p =
      behind (front ++ ahead.takeWhile p) (ahead.dropWhile p) := by
  induction ahead generalizing front with
  | nil => rw [passWhile_of_none (peek?_nil front), List.takeWhile_nil, List.append_nil]; rfl
  | cons d ahead ih =>
    have hpass (h : p d = true) : behind (front ++ (d :: ahead).takeWhile p)
        ((d :: ahead).dropWhile p) = (behind (front ++ [d]) ahead).passWhile p := by
      rw [ih, List.takeWhile_cons_of_pos h, List.dropWhile_cons_of_pos h, List.append_assoc]
      rfl
    have hstay (h : p d = false) : behind (front ++ (d :: ahead).takeWhile p)
        ((d :: ahead).dropWhile p) = behind front (d :: ahead) := by
      rw [List.takeWhile_cons_of_neg (by simp [h]), List.dropWhile_cons_of_neg (by simp [h]),
        List.append_nil]
    by_cases hd : d.toNat < 128
    · rw [passWhile_of_some (peek?_of_lt front ahead hd)]
      split <;> rename_i h
      · have hne : d ≠ '\n' := by
          rintro rfl
          rw [hn] at h
          cases h
        rw [advance_one front ahead hd hne, hpass h]
      · rw [hstay (Bool.eq_false_iff.2 h)]
    · have hle : 128 ≤ d.toNat := Nat.le_of_not_lt hd
      cases b with
      | true =>
        rw [hpass (hp d hle)]
        refine eq_of_high front ahead (fun c e he hle => ?_) hle
        rw [passWhile_of_some he, if_pos (hp e hle)]
      | false =>
        obtain ⟨e, he, hle'⟩ := peek?_of_le front ahead hle d.utf8Size_pos
        rw [passWhile_of_some he, if_neg (by simp [hp e hle']), hstay (hp d hle)]

theorem closeComment_of_none {c : Cursor} (h : c.peek? 0 = none) : c.closeComment = (c, false) := by
  rw [closeComment]
  split <;> rename_i h' <;> cases h.symm.trans h'
  rfl

theorem closeComment_of_star {c : Cursor} (h : c.peek? 0 = some '*') :
    c.closeComment =
      if c.peek? 1 = some '/' then (c.advance 2, true) else (c.advance 1).closeComment := by
  rw [closeComment]
  split <;> rename_i h' <;> cases h.symm.trans h' <;> first | rfl | contradiction

theorem closeComment_of_lineFeed {c : Cursor} (h : c.peek? 0 = some '\n') :
    c.closeComment = c.nextLine.closeComment := by
  rw [closeComment]
  split <;> rename_i h' <;> cases h.symm.trans h' <;> first | rfl | contradiction

theorem closeComment_of_some {c : Cursor} {d : Char} (h : c.peek? 0 = some d) (hs : d ≠ '*')
    (hn : d ≠ '\n') : c.closeComment = (c.advance 1).closeComment := by
  rw [closeComment]
  split <;> rename_i h' <;> cases h.symm.trans h' <;> first | rfl | contradiction

section Close

theorem closeComment_cons {d : Char} (hs : d ≠ '*') :
    (behind front (d :: rest)).closeComment = (behind (front ++ [d]) rest).closeComment := by
  by_cases hn : d = '\n'
  · subst hn
    rw [closeComment_of_lineFeed (peek?_of_lt front rest (by decide)), nextLine_behind]
  · by_cases hd : d.toNat < 128
    · rw [closeComment_of_some (peek?_of_lt front rest hd) hs hn, advance_one front rest hd hn]
    · refine eq_of_high front rest (fun c e he hle => ?_) (Nat.le_of_not_lt hd)
      exact closeComment_of_some he (ne_of_high hle (by decide)) (ne_of_high hle (by decide))

theorem closeComment_star (h : rest.head? ≠ some '/') :
    (behind front ('*' :: rest)).closeComment = (behind (front ++ ['*']) rest).closeComment := by
  have hpeek : (behind front ('*' :: rest)).peek? 1 ≠ some '/' := by
    rw [peek?_one front rest (by decide) (by decide)]
    exact mt (peek?_eq_some_iff _ _ (by decide)).1 h
  rw [closeComment_of_star (peek?_of_lt front rest (by decide)), if_neg hpeek,
    advance_one front rest (by decide) (by decide)]

theorem closeComment_closed {body : List Char} (hb : ¬ ['*', '/'] <:+: body ++ ['*']) :
    (behind front (body ++ '*' :: '/' :: rest)).closeComment =
      (behind (front ++ body ++ ['*', '/']) rest, true) := by
  induction body generalizing front with
  | nil =>
    have hpeek : (behind front ('*' :: '/' :: rest)).peek? 1 = some '/' :=
      peek?_one_of_lt front rest (by decide) (by decide) (by decide)
    rw [List.nil_append, closeComment_of_star (peek?_of_lt front _ (by decide)), if_pos hpeek,
      advance_two front rest (by decide) (by decide) (by decide) (by decide), List.append_nil]
  | cons d body ih =>
    rw [List.cons_append, List.infix_cons_iff, not_or] at hb
    have hrest := ih (front ++ [d]) hb.2
    simp only [List.append_assoc, List.singleton_append] at hrest
    rw [List.cons_append, List.append_assoc]
    by_cases hd : d = '*'
    · subst hd
      rw [closeComment_star, hrest]
      rintro hhead
      -- a slash behind the star would close the comment earlier
      refine hb.1 ?_
      rcases body with _ | ⟨e, body⟩
      · cases hhead
      · cases hhead
        simp
    · rw [closeComment_cons _ _ hd, hrest]

theorem closeComment_open {body : List Char} (hb : ¬ ['*', '/'] <:+: body) :
    (behind front body).closeComment = (behind (front ++ body) [], false) := by
  induction body generalizing front with
  | nil => rw [closeComment_of_none (peek?_nil front), List.append_nil]
  | cons d body ih =>
    rw [List.infix_cons_iff, not_or] at hb
    have hrest := ih (front ++ [d]) hb.2
    rw [List.append_assoc, List.singleton_append] at hrest
    by_cases hd : d = '*'
    · subst hd
      rw [closeComment_star, hrest]
      rintro hhead
      obtain ⟨body, rfl⟩ := List.head?_eq_some_iff.1 hhead
      exact hb.1 (by simp)
    · rw [closeComment_cons _ _ hd, hrest]

theorem closeString_cons {d : Char} (hq : d ≠ '"') :
    (behind front (d :: rest)).closeString = (behind (front ++ [d]) rest).closeString := by
  have hsome {c : Cursor} {e : Char} (h : c.peek? 0 = some e) (hq : e ≠ '"') (hn : e ≠ '\n') :
      c.closeString = (c.advance 1).closeString := by
    rw [closeString]
    split <;> rename_i h' <;> cases h.symm.trans h' <;> first | rfl | contradiction
  by_cases hn : d = '\n'
  · subst hn
    rw [← nextLine_behind, closeString]
    split <;> rename_i h <;> cases (peek?_of_lt front rest (by decide)).symm.trans h <;>
      first | rfl | contradiction
  · by_cases hd : d.toNat < 128
    · rw [hsome (peek?_of_lt front rest hd) hq hn, advance_one front rest hd hn]
    · refine eq_of_high front rest (fun c e he hle => ?_) (Nat.le_of_not_lt hd)
      exact hsome he (ne_of_high hle (by decide)) (ne_of_high hle (by decide))

theorem closeString_append {body : List Char} (hb : '"' ∉ body) :
    (behind front (body ++ rest)).closeString = (behind (front ++ body) rest).closeString := by
  induction body generalizing front with
  | nil => rw [List.append_nil, List.nil_append]
  | cons d body ih =>
    rw [List.mem_cons, not_or] at hb
    rw [List.cons_append, closeString_cons _ _ (Ne.symm hb.1), ih _ hb.2, List.append_assoc,
      List.singleton_append]

theorem closeString_quote :
    (behind front ('"' :: rest)).closeString = (behind (front ++ ['"']) rest, true) := by
  rw [closeString]
  split <;> rename_i h <;> cases (peek?_of_lt front rest (by decide)).symm.trans h <;>
    first | contradiction | rw [advance_one front rest (by decide) (by decide)]

theorem closeString_nil : (behind front []).closeString = (behind front [], false) := by
  rw [closeString]
  split <;> rename_i h <;> cases (peek?_nil front).symm.trans h
  rfl

end Close

/-! ## Trivia -/

theorem not_trivia_of_le {e : Char} (he : 128 ≤ e.toNat) :
    Trivia.isSpacing e = false ∧ e ≠ '/' := by
  refine ⟨?_, ne_of_high he (by decide)⟩
  rw [Bool.eq_false_iff]
  intro h
  simp only [Trivia.isSpacing, Bool.or_eq_true, beq_iff_eq] at h
  rcases h with ((rfl | rfl) | rfl) | rfl <;> exact absurd he (by decide)

section Skip

variable {c : Cursor}

theorem skipTrivia_of_lineFeed (h : c.peek? 0 = some '\n') :
    c.skipTrivia = c.nextLine.skipTrivia := by
  rw [skipTrivia]
  split <;> first | contradiction | rename_i h'; cases h.symm.trans h' <;> rfl

theorem skipTrivia_of_blank {d : Char} (h : c.peek? 0 = some d)
    (hd : d = ' ' ∨ d = '\t' ∨ d = '\r') : c.skipTrivia = (c.advance 1).skipTrivia := by
  rw [skipTrivia]
  rcases hd with rfl | rfl | rfl <;> split <;>
    first | contradiction | rename_i h'; cases h.symm.trans h' <;> rfl

theorem skipTrivia_of_line (h : c.peek? 0 = some '/') (h₁ : c.peek? 1 = some '/') :
    c.skipTrivia = ((c.advance 2).passWhile (· != '\n')).skipTrivia := by
  rw [skipTrivia]
  split <;> first | contradiction | rename_i h'; cases h.symm.trans h'
  split <;> first | contradiction | rename_i h'; cases h₁.symm.trans h' <;> rfl

theorem skipTrivia_of_block {d : Cursor} {closed : Bool} (h : c.peek? 0 = some '/')
    (h₁ : c.peek? 1 = some '*') (hd : (c.advance 2).closeComment = (d, closed)) :
    c.skipTrivia = if closed then d.skipTrivia else (d, some c) := by
  rw [skipTrivia]
  split <;> first | contradiction | rename_i h'; cases h.symm.trans h'
  split <;> first | contradiction | rename_i h'; cases h₁.symm.trans h'
  split <;> rename_i h' <;> cases hd.symm.trans h' <;> rfl

theorem skipTrivia_of_slash (h : c.peek? 0 = some '/')
    (h₁ : c.peek? 1 ≠ some '/' ∧ c.peek? 1 ≠ some '*') : c.skipTrivia = (c, none) := by
  rw [skipTrivia]
  split <;> first | contradiction | rename_i h'; cases h.symm.trans h'
  split <;> first | rfl | rename_i h'; exact absurd h' (by simp [h₁])

theorem skipTrivia_of_not {e : Option Char} (h : c.peek? 0 = e)
    (he : ∀ d, e = some d → Trivia.isSpacing d = false ∧ d ≠ '/') : c.skipTrivia = (c, none) := by
  rw [skipTrivia]
  split <;> first | rfl | rename_i h'; exact absurd (he _ (h.symm.trans h')) (by decide)

end Skip

theorem skipTrivia_piece {piece rest : List Char} (hp : Piece piece rest) :
    (behind front (piece ++ rest)).skipTrivia = (behind (front ++ piece) rest).skipTrivia := by
  cases hp with
  | @blank d _ hd =>
    simp only [Trivia.isSpacing, Bool.or_eq_true, beq_iff_eq, or_assoc] at hd
    rw [List.singleton_append]
    rcases hd with rfl | rfl | rfl | rfl
    case inr.inr.inr =>
      rw [skipTrivia_of_lineFeed (peek?_of_lt front rest (by decide)), nextLine_behind]
    all_goals
      rw [skipTrivia_of_blank (peek?_of_lt front rest (by decide)) (by decide),
        advance_one front rest (by decide) (by decide)]
  | @line body _ hb hr =>
    have hbody := Trivia.all_ne_of_notMem hb
    have hrest := Trivia.stops_iff_lineEnd.2 hr
    have hhigh : ∀ e : Char, 128 ≤ e.toNat → (e != '\n') = true :=
      fun e he => bne_iff_ne.2 (ne_of_high he (by decide))
    have hslash : (behind front ('/' :: '/' :: (body ++ rest))).peek? 1 = some '/' :=
      peek?_one_of_lt front _ (by decide) (by decide) (by decide)
    rw [List.cons_append, List.cons_append,
      skipTrivia_of_line (peek?_of_lt front _ (by decide)) hslash,
      advance_two front _ (by decide) (by decide) (by decide) (by decide),
      passWhile_behind hhigh (by decide), List.takeWhile_append_of_pos hbody,
      List.dropWhile_append_of_pos hbody, hrest.takeWhile, hrest.dropWhile, List.append_nil,
      List.append_assoc]
    rfl
  | @block body _ hb =>
    have hstar :
        (behind front ('/' :: '*' :: (body ++ '*' :: '/' :: rest))).peek? 1 = some '*' :=
      peek?_one_of_lt front _ (by decide) (by decide) (by decide)
    have hclose :
        ((behind front ('/' :: '*' :: (body ++ '*' :: '/' :: rest))).advance 2).closeComment =
        (behind (front ++ ['/', '*'] ++ body ++ ['*', '/']) rest, true) := by
      rw [advance_two front _ (by decide) (by decide) (by decide) (by decide),
        closeComment_closed _ rest hb]
    have hskip := skipTrivia_of_block (peek?_of_lt front _ (by decide)) hstar hclose
    simpa using hskip

/-- All of a gap is skipped. -/
theorem skipTrivia_gap {gap rest : List Char} (hg : Gap gap rest) :
    (behind front (gap ++ rest)).skipTrivia = (behind (front ++ gap) rest).skipTrivia := by
  induction hg generalizing front with
  | nil => rw [List.append_nil, List.nil_append]
  | cons hp _ ih => rw [List.append_assoc, skipTrivia_piece front hp, ih, List.append_assoc]

/-- Nothing is skipped where no piece of trivia begins, not even an open comment. -/
theorem skipTrivia_stop {rest : List Char} (hn : piece? rest = none)
    (ho : ¬ ['/', '*'] <+: rest) : (behind front rest).skipTrivia = (behind front rest, none) := by
  rcases rest with _ | ⟨d, rest⟩
  · exact skipTrivia_of_not (peek?_nil front) (by simp)
  · have hspace := Trivia.isSpacing_of_piece?_eq_none hn
    by_cases hslash : d = '/'
    · subst hslash
      refine skipTrivia_of_slash (peek?_of_lt front rest (by decide)) ?_
      rw [peek?_one _ _ (by decide) (by decide)]
      refine ⟨fun h => ?_, fun h => ?_⟩
      · obtain ⟨rest, rfl⟩ := List.head?_eq_some_iff.1 ((peek?_eq_some_iff _ _ (by decide)).1 h)
        cases hn
      · obtain ⟨rest, rfl⟩ := List.head?_eq_some_iff.1 ((peek?_eq_some_iff _ _ (by decide)).1 h)
        exact ho (by simp)
    · by_cases hd : d.toNat < 128
      · refine skipTrivia_of_not (peek?_of_lt front rest hd) fun e he => ?_
        cases he
        exact ⟨hspace, hslash⟩
      · have hle := Nat.le_of_not_lt hd
        obtain ⟨e, he, hle'⟩ := peek?_of_le front rest hle d.utf8Size_pos
        exact skipTrivia_of_not he fun e' he' => Option.some.inj he' ▸ not_trivia_of_le hle'

theorem skipTrivia_open {body : List Char} (hb : ¬ ['*', '/'] <:+: body) :
    (behind front ('/' :: '*' :: body)).skipTrivia =
      (behind (front ++ '/' :: '*' :: body) [], some (behind front ('/' :: '*' :: body))) := by
  have hstar : (behind front ('/' :: '*' :: body)).peek? 1 = some '*' :=
    peek?_one_of_lt front body (by decide) (by decide) (by decide)
  have hclose := closeComment_open (front ++ ['/', '*']) hb
  rw [← advance_two front _ (by decide) (by decide) (by decide) (by decide)] at hclose
  rw [skipTrivia_of_block (peek?_of_lt front _ (by decide)) hstar hclose, List.append_assoc]
  rfl

end Cursor

end ScriptScan
