import ScriptScan.Text.Line
import ScriptScan.Proofs.Gap

/-!
# The line at an offset

A text that is empty or ends with a line feed has only whole lines (`Text.Closed`); its pieces are
the first ones of any text that begins with it (`Text.pieces_append`). With one more line for what
stands behind the last line feed the pieces become lines that reach up to the end of the text, and
one count over these lines (`Text.lineIn?`) finds what the lookup finds that treats the end of the
text on its own (`Text.lineAt?_eq_lineIn?`). So the line at an offset is told by the line feeds on
either side of it (`Text.lineAt?_eq`).
-/

namespace ScriptScan.Text

/-- A text of whole lines. -/
def Closed (cs : List Char) : Prop := ∀ c, cs.getLast? = some c → c = '\n'

theorem closed_nil : Closed [] := by simp [Closed]

theorem Closed.of_cons {c : Char} {cs : List Char} (h : Closed (c :: cs)) : Closed cs := by
  intro d hd
  exact h d (by simp [List.getLast?_cons, hd])

theorem Closed.eq_nil_or_concat {cs : List Char} (h : Closed cs) :
    cs = [] ∨ ∃ init, cs = init ++ ['\n'] := by
  rcases List.eq_nil_or_concat cs with rfl | ⟨init, c, rfl⟩
  · exact Or.inl rfl
  · rw [List.concat_eq_append] at h ⊢
    obtain rfl := h c List.getLast?_concat
    exact Or.inr ⟨init, rfl⟩

theorem closed_append_lineFeed (body : List Char) {above : List Char} (h : Closed above) :
    Closed (body ++ '\n' :: above) := by
  rcases h.eq_nil_or_concat with rfl | ⟨init, rfl⟩ <;> simp [Closed, List.getLast?_cons]

/-- Every text is whole lines and the beginning of one. -/
theorem exists_closed (cs : List Char) :
    ∃ above start, cs = above ++ start ∧ Closed above ∧ '\n' ∉ start := by
  induction cs with
  | nil => exact ⟨[], [], rfl, closed_nil, by simp⟩
  | cons c cs ih =>
    obtain ⟨above, start, rfl, ha, hs⟩ := ih
    rcases above with _ | ⟨d, above⟩
    · by_cases hc : c = '\n'
      · exact ⟨[c], start, rfl, by simp [Closed, hc], hs⟩
      · exact ⟨[], c :: start, rfl, closed_nil, by simp [Ne.symm hc, hs]⟩
    · exact ⟨c :: d :: above, start, rfl, by simpa [Closed] using ha, hs⟩

/-- Every text begins with the rest of a line. -/
theorem exists_line (cs : List Char) :
    ∃ body below, cs = body ++ below ∧ '\n' ∉ body ∧ (below = [] ∨ below.head? = some '\n') := by
  refine ⟨cs.takeWhile (· != '\n'), cs.dropWhile (· != '\n'), ?_, ?_, ?_⟩
  · exact List.takeWhile_append_dropWhile.symm
  · intro h
    simpa using List.all_eq_true.1 List.all_takeWhile _ h
  · exact Trivia.stops_iff_lineEnd.1 (Trivia.stops_dropWhile _ cs)

/-! ### Pieces -/

theorem pieces_lineFeed (cs : List Char) : pieces ('\n' :: cs) = ['\n'] :: pieces cs := rfl

theorem pieces_cons {c : Char} {cs p : List Char} {ps : List (List Char)} (hc : c ≠ '\n')
    (h : pieces cs = p :: ps) : pieces (c :: cs) = (c :: p) :: ps := by
  unfold pieces at h ⊢
  rw [List.foldr_cons, h, if_neg hc]

theorem pieces_singleton {c : Char} (hc : c ≠ '\n') : pieces [c] = [[c]] := if_neg hc

/-- The pieces of a text are the text. -/
theorem flatten_pieces (cs : List Char) : (pieces cs).flatten = cs := by
  induction cs with
  | nil => rfl
  | cons c cs ih =>
    by_cases hc : c = '\n'
    · subst hc
      rw [pieces_lineFeed, List.flatten_cons, ih, List.singleton_append]
    · rcases h : pieces cs with _ | ⟨p, ps⟩
      · rw [h] at ih
        rw [← ih, List.flatten_nil, pieces_singleton hc]
        rfl
      · rw [h] at ih
        rw [pieces_cons hc h, ← ih]
        rfl

/-- In whole lines the line of a character that is no line feed ends further on. -/
theorem Closed.exists_pieces {c : Char} {cs : List Char} (h : Closed (c :: cs)) (hc : c ≠ '\n') :
    ∃ p ps, pieces cs = p :: ps := by
  refine List.exists_cons_of_ne_nil fun hnil => hc (h c ?_)
  rw [← flatten_pieces cs, hnil]
  rfl

/-- What stands behind whole lines does not change their pieces. -/
theorem pieces_append {above : List Char} (ha : Closed above) (cs : List Char) :
    pieces (above ++ cs) = pieces above ++ pieces cs := by
  induction above with
  | nil => rfl
  | cons c above ih =>
    have ih := ih ha.of_cons
    by_cases hc : c = '\n'
    · subst hc
      rw [List.cons_append, pieces_lineFeed, pieces_lineFeed, ih, List.cons_append]
    · obtain ⟨p, ps, hp⟩ := ha.exists_pieces hc
      have hboth : pieces (above ++ cs) = p :: (ps ++ pieces cs) := by
        rw [ih, hp, List.cons_append]
      rw [List.cons_append, pieces_cons hc hboth, pieces_cons hc hp, List.cons_append]

/-- Each of a number of whole lines is one piece. -/
theorem Closed.length_pieces {above : List Char} (ha : Closed above) :
    (pieces above).length = above.count '\n' := by
  induction above with
  | nil => rfl
  | cons c above ih =>
    have ih := ih ha.of_cons
    by_cases hc : c = '\n'
    · subst hc
      rw [pieces_lineFeed, List.length_cons, List.count_cons_self, ih]
    · obtain ⟨p, ps, hp⟩ := ha.exists_pieces hc
      rw [List.count_cons_of_ne hc, pieces_cons hc hp, ← ih, hp, List.length_cons, List.length_cons]

theorem pieces_append_lineFeed {body : List Char} (hb : '\n' ∉ body) (cs : List Char) :
    pieces (body ++ '\n' :: cs) = (body ++ ['\n']) :: pieces cs := by
  induction body with
  | nil => rfl
  | cons c body ih =>
    rw [List.mem_cons, not_or] at hb
    exact pieces_cons (Ne.symm hb.1) (ih hb.2)

theorem pieces_of_notMem {body : List Char} (hb : '\n' ∉ body) (hne : body ≠ []) :
    pieces body = [body] := by
  induction body with
  | nil => exact absurd rfl hne
  | cons c body ih =>
    rw [List.mem_cons, not_or] at hb
    rcases body with _ | ⟨d, body⟩
    · exact pieces_singleton (Ne.symm hb.1)
    · exact pieces_cons (Ne.symm hb.1) (ih hb.2 (List.cons_ne_nil d body))

/-! ### Lines -/

/-- The lines of a text, in order: its pieces, and an empty line behind whole lines. -/
def lines (cs : List Char) : List (List Char) :=
  pieces cs ++ if cs.getLast?.all (· == '\n') then [[]] else []

/-- The line at `offset`, counted from the first of the given lines, which has the given number. -/
def lineIn? (number offset : Nat) : List (List Char) → Option Line
  | [] => none
  | l :: ls =>
    if offset < width l ∨ (offset = width l ∧ ls = []) then some ⟨number, l, offset⟩
    else lineIn? (number + 1) (offset - width l) ls

theorem lines_append {above : List Char} (ha : Closed above) (cs : List Char) :
    lines (above ++ cs) = pieces above ++ lines cs := by
  have hlast : (above ++ cs).getLast?.all (· == '\n') = cs.getLast?.all (· == '\n') := by
    rw [List.getLast?_append]
    rcases cs.getLast? with _ | c
    · rcases h : above.getLast? with _ | c
      · rfl
      · rw [ha c h]
        rfl
    · rfl
  rw [lines, pieces_append ha, hlast, List.append_assoc, lines]

theorem lines_of_notMem {body : List Char} (hb : '\n' ∉ body) : lines body = [body] := by
  rcases hlast : body.getLast? with _ | c
  · obtain rfl := List.getLast?_eq_none_iff.1 hlast
    rfl
  · have hc : c ≠ '\n' := by
      rintro rfl
      exact hb (List.mem_of_getLast? hlast)
    have hne : body ≠ [] := by
      rintro rfl
      simp at hlast
    rw [lines, pieces_of_notMem hb hne, hlast, Option.all_some, if_neg (by simpa using hc),
      List.append_nil]

theorem lines_append_lineFeed {body : List Char} (hb : '\n' ∉ body) (cs : List Char) :
    lines (body ++ '\n' :: cs) = (body ++ ['\n']) :: lines cs := by
  have hclosed : Closed (body ++ ['\n']) := closed_append_lineFeed body closed_nil
  rw [← List.singleton_append, ← List.append_assoc, lines_append hclosed,
    pieces_append_lineFeed hb]
  rfl

theorem lines_ne_nil (cs : List Char) : lines cs ≠ [] := by
  obtain ⟨body, below, rfl, hb, rfl | hbelow⟩ := exists_line cs
  · simp [lines_of_notMem hb]
  · obtain ⟨below, rfl⟩ := List.head?_eq_some_iff.1 hbelow
    simp [lines_append_lineFeed hb]

/-! ### The two lookups -/

section Lookup

variable (number : Nat) (ps : List (List Char))

/-- Behind all but the last of the lines, lines are counted on from these. -/
theorem lineIn?_append {ls : List (List Char)} (hls : ls ≠ []) (m : Nat) :
    lineIn? number (width ps.flatten + m) (ps ++ ls) = lineIn? (number + ps.length) m ls := by
  induction ps generalizing number with
  | nil => simp
  | cons p ps ih =>
    have hnot : ¬ (width (p :: ps).flatten + m < width p ∨
        width (p :: ps).flatten + m = width p ∧ ps ++ ls = []) := by
      have hne : ps ++ ls ≠ [] := List.append_ne_nil_of_right_ne_nil ps hls
      simp only [List.flatten_cons, width_append, hne, and_false, or_false]
      omega
    have hrest : width (p :: ps).flatten + m - width p = width ps.flatten + m := by
      rw [List.flatten_cons, width_append]
      omega
    rw [List.cons_append, lineIn?, if_neg hnot, hrest, ih, List.length_cons]
    congr 1
    omega

/-- Behind some of the pieces, the count of pieces goes on from these. -/
theorem lineAmong_append (start : Nat) (qs : List (List Char)) {n : Nat}
    (h : start + width ps.flatten ≤ n) :
    lineAmong n number start (ps ++ qs) =
      lineAmong n (number + ps.length) (start + width ps.flatten) qs := by
  induction ps generalizing number start with
  | nil => simp
  | cons p ps ih =>
    rw [List.flatten_cons, width_append] at h ⊢
    rw [List.cons_append, lineAmong, if_neg (by omega), ih _ _ (by omega), List.length_cons]
    congr 1 <;> omega

/-- An offset within the pieces is in one of them, where the count over the lines finds it too. -/
theorem exists_lineAmong (ls : List (List Char)) {start n : Nat} (hstart : start ≤ n)
    (h : n < start + width ps.flatten) :
    ∃ l, lineAmong n number start ps = .inl l ∧
      lineIn? number (n - start) (ps ++ ls) = some l := by
  induction ps generalizing number start with
  | nil => exact absurd h (by simpa using hstart)
  | cons p ps ih =>
    rw [List.flatten_cons, width_append] at h
    rw [List.cons_append, lineAmong, lineIn?]
    by_cases hn : n < start + width p
    · rw [if_pos ⟨hstart, hn⟩, if_pos (Or.inl (by omega))]
      exact ⟨_, rfl, rfl⟩
    · have hne : ¬ (n - start = width p ∧ ps ++ ls = []) := by
        rintro ⟨hwidth, hnil⟩
        rw [(List.append_eq_nil_iff.1 hnil).1] at h
        simp at h
        omega
      rw [if_neg (by omega), if_neg (not_or.2 ⟨by omega, hne⟩)]
      have hstop : start + width p ≤ n := Nat.le_of_not_lt hn
      obtain ⟨l, hl, hin⟩ := ih (number + 1) hstop (by omega)
      exact ⟨l, hl, by rwa [Nat.sub_sub]⟩

end Lookup

/-- Behind whole lines, lines are counted on from them. -/
theorem lineIn?_behind {above : List Char} (ha : Closed above) (cs : List Char) (k m : Nat) :
    lineIn? k (width above + m) (lines (above ++ cs)) =
      lineIn? (k + above.count '\n') m (lines cs) := by
  have h := lineIn?_append k (pieces above) (lines_ne_nil cs) m
  rwa [flatten_pieces, ha.length_pieces, ← lines_append ha] at h

theorem lastLine?_of_notMem {cs : List Char} (h : '\n' ∉ cs) : lastLine? cs = none := if_neg h

theorem lastLine?_append_lineFeed (init : List Char) {start : List Char} (hs : '\n' ∉ start) :
    lastLine? (init ++ '\n' :: start) = some start := by
  have hstart : ∀ c ∈ start.reverse, (c != '\n') = true :=
    Trivia.all_ne_of_notMem fun h => hs (List.mem_reverse.1 h)
  have hreverse : (init ++ '\n' :: start).reverse = start.reverse ++ '\n' :: init.reverse := by
    simp
  rw [lastLine?, if_pos (by simp), hreverse, List.takeWhile_append_of_pos hstart,
    List.takeWhile_cons_of_neg (by decide), List.append_nil, List.reverse_reverse]

/-- The line at the end of a text has the number behind its whole lines. -/
theorem lineAtEnd_eq {above start : List Char} (ha : Closed above) (hs : '\n' ∉ start) :
    lineAtEnd (above ++ start) (1 + (pieces (above ++ start)).length) =
      ⟨1 + above.count '\n', start, width start⟩ := by
  rw [pieces_append ha, List.length_append, ha.length_pieces]
  rcases ha.eq_nil_or_concat with rfl | ⟨init, rfl⟩
  · rw [List.nil_append, lineAtEnd, lastLine?_of_notMem hs]
    rfl
  · rw [lineAtEnd, List.append_assoc, List.singleton_append, lastLine?_append_lineFeed init hs]
    rcases start with _ | ⟨c, start⟩
    · rfl
    · -- the last piece has no line feed, so the count is one ahead
      rw [pieces_of_notMem hs (List.cons_ne_nil c start)]
      rfl

theorem lineIn?_end {above start : List Char} (ha : Closed above) (hs : '\n' ∉ start) :
    lineIn? 1 (width (above ++ start)) (lines (above ++ start)) =
      some ⟨1 + above.count '\n', start, width start⟩ := by
  rw [width_append, lineIn?_behind ha, lines_of_notMem hs, lineIn?, if_pos (Or.inr ⟨rfl, rfl⟩)]

/-- Past the end of a text there is no line. -/
theorem lineIn?_eq_none {cs : List Char} {n : Nat} (h : width cs < n) :
    lineIn? 1 n (lines cs) = none := by
  obtain ⟨above, start, rfl, ha, hs⟩ := exists_closed cs
  rw [width_append] at h
  obtain ⟨m, rfl⟩ := Nat.exists_eq_add_of_le (Nat.le_trans (Nat.le_add_right _ _) (Nat.le_of_lt h))
  rw [lineIn?_behind ha, lines_of_notMem hs, lineIn?, if_neg (by omega), lineIn?]

/-- The lookup among the pieces, with the end of the text on its own, is one count over the
lines. -/
theorem lineAt?_eq_lineIn? (cs : List Char) (n : Nat) : lineAt? cs n = lineIn? 1 n (lines cs) := by
  have hall : 0 + width (pieces cs).flatten = width cs := by rw [flatten_pieces, Nat.zero_add]
  rw [lineAt?]
  rcases Nat.lt_trichotomy n (width cs) with hn | rfl | hn
  · -- in front of the end some piece contains the offset
    obtain ⟨l, hl, hin⟩ := exists_lineAmong 1 (pieces cs)
      (if cs.getLast?.all (· == '\n') then [[]] else []) (Nat.zero_le n) (by rwa [hall])
    rw [if_neg (Nat.lt_asymm hn), hl]
    exact hin.symm
  · -- at the end none does
    have hnone : lineAmong (width cs) 1 0 (pieces cs) = .inr (1 + (pieces cs).length) := by
      have h := lineAmong_append 1 (pieces cs) 0 [] (Nat.le_of_eq hall)
      rwa [List.append_nil, lineAmong] at h
    obtain ⟨above, start, hcs, ha, hs⟩ := exists_closed cs
    rw [if_neg (Nat.lt_irrefl _), hnone, hcs, lineIn?_end ha hs, ← lineAtEnd_eq ha hs]
  · rw [if_pos hn, lineIn?_eq_none hn]

example : lineAt? ['a', '\n'] 2 = some ⟨2, [], 0⟩ ∧ lineAt? ['\n', 'a'] 2 = some ⟨2, ['a'], 1⟩ := by
  decide

/-- The line around an offset is what stands there between two line feeds, with the second. -/
theorem lineAt?_eq {above body below : List Char} (ha : Closed above) (hb : '\n' ∉ body)
    (hbelow : below = [] ∨ below.head? = some '\n') {m : Nat} (hm : m ≤ width body) :
    lineAt? (above ++ body ++ below) (width above + m) =
      some ⟨1 + above.count '\n', body ++ below.take 1, m⟩ := by
  rw [lineAt?_eq_lineIn?, List.append_assoc, lineIn?_behind ha]
  rcases hbelow with rfl | hbelow
  · rw [List.append_nil, lines_of_notMem hb, lineIn?, if_pos (by simp; omega)]
    simp
  · obtain ⟨below, rfl⟩ := List.head?_eq_some_iff.1 hbelow
    have hlt : m < width (body ++ ['\n']) := by
      have hfeed : width ['\n'] = 1 := rfl
      rw [width_append, hfeed]
      omega
    rw [lines_append_lineFeed hb, lineIn?, if_pos (Or.inl hlt)]
    rfl

end ScriptScan.Text
