/-!
# Pieces of trivia

Trivia read character by character: `piece?` finds the piece of trivia with which a text begins, a
blank or a whole comment. Nothing is lost (`piece?_eq_append`) and a piece is never empty
(`length_lt_of_piece?`).
-/

namespace ScriptScan.Trivia

/-- A space, a tab, or part of the end of a line. -/
def isSpacing (c : Char) : Bool := c == ' ' || c == '\t' || c == '\r' || c == '\n'

/-- Reads on in a block comment, of which `seen` is read, latest character first. -/
def closeFrom (seen : List Char) : List Char → Option (List Char × List Char)
  | [] => none
  | '*' :: '/' :: rest => some (seen.reverse ++ ['*', '/'], rest)
  | c :: rest => closeFrom (c :: seen) rest

/-- The piece of trivia with which a text begins, and the text after it. A block comment which is
never closed is no piece. -/
def piece? : List Char → Option (List Char × List Char)
  | '/' :: '/' :: cs =>
    some ('/' :: '/' :: cs.takeWhile (· != '\n'), cs.dropWhile (· != '\n'))
  | '/' :: '*' :: cs => closeFrom ['*', '/'] cs
  | c :: cs => if isSpacing c then some ([c], cs) else none
  | [] => none

theorem closeFrom_eq_append {seen cs piece rest : List Char}
    (h : closeFrom seen cs = some (piece, rest)) :
    ∃ body, piece = seen.reverse ++ body ++ ['*', '/'] ∧ cs = body ++ '*' :: '/' :: rest := by
  fun_induction closeFrom seen cs with
  | case1 => simp at h
  | case2 seen cs =>
    simp only [Option.some.injEq, Prod.mk.injEq] at h
    obtain ⟨rfl, rfl⟩ := h
    exact ⟨[], by simp, rfl⟩
  | case3 seen c cs _ ih =>
    obtain ⟨body, hp, hc⟩ := ih h
    exact ⟨c :: body, by simp [hp], by simp [hc]⟩

theorem piece?_eq_append {cs piece rest : List Char} (h : piece? cs = some (piece, rest)) :
    cs = piece ++ rest ∧ piece ≠ [] := by
  unfold piece? at h
  split at h
  · simp only [Option.some.injEq, Prod.mk.injEq] at h
    obtain ⟨rfl, rfl⟩ := h
    simp [List.takeWhile_append_dropWhile]
  · obtain ⟨body, rfl, rfl⟩ := closeFrom_eq_append h
    simp
  · split at h
    · simp only [Option.some.injEq, Prod.mk.injEq] at h
      obtain ⟨rfl, rfl⟩ := h
      simp
    · simp at h
  · simp at h

theorem length_lt_of_piece? {cs piece rest : List Char} (h : piece? cs = some (piece, rest)) :
    rest.length < cs.length := by
  obtain ⟨rfl, hne⟩ := piece?_eq_append h
  have := List.length_pos_iff.2 hne
  rw [List.length_append]
  omega

end ScriptScan.Trivia
