import ScriptScan.Cursor

/-!
# Trivia

What stands between tokens: spaces, tabs and ends of lines, comments from `//` to the end of their
line, and comments from `/*` to the first `*/` after it. Line feeds are counted where they are
passed one by one; a line comment stops in front of its line feed and passes none.
-/

namespace ScriptScan.Cursor

/-- Behind the end of the block comment whose opening mark is passed, and whether there is one. An
open comment is passed up to the end of the source. -/
def closeComment (c : Cursor) : Cursor × Bool :=
  match _h : c.peek? 0 with
  | some '*' => if c.peek? 1 = some '/' then (c.advance 2, true) else (c.advance 1).closeComment
  | some '\n' => c.nextLine.closeComment
  | some _ => (c.advance 1).closeComment
  | none => (c, false)
termination_by c.left
decreasing_by
  · exact left_advance_lt _h Nat.one_pos
  · exact left_nextLine_lt _h
  · exact left_advance_lt _h Nat.one_pos

theorem before_closeComment (c : Cursor) : c.Before c.closeComment.1 := by
  fun_induction closeComment c with
  | case1 c h hclose => exact before_advance c 2
  | case2 c h hclose ih => exact (before_advance c 1).trans ih
  | case3 c h ih => exact (before_nextLine c).trans ih
  | case4 c d hstar hfeed h ih => exact (before_advance c 1).trans ih
  | case5 c h => exact .refl c

/-- Behind all trivia. If a comment in it is never closed, that is the end of the source, and the
second cursor stands in front of the comment. -/
def skipTrivia (c : Cursor) : Cursor × Option Cursor :=
  match _h : c.peek? 0 with
  | some '\n' => c.nextLine.skipTrivia
  | some ' ' | some '\t' | some '\r' => (c.advance 1).skipTrivia
  | some '/' =>
    match c.peek? 1 with
    | some '/' => ((c.advance 2).passWhile (· != '\n')).skipTrivia
    | some '*' =>
      match _hc : (c.advance 2).closeComment with
      | (d, true) => d.skipTrivia
      | (d, false) => (d, some c)
    | _ => (c, none)
  | _ => (c, none)
termination_by c.left
decreasing_by
  · exact left_nextLine_lt _h
  · exact left_advance_lt _h Nat.one_pos
  · exact left_advance_lt _h Nat.one_pos
  · exact left_advance_lt _h Nat.one_pos
  · exact Nat.lt_of_le_of_lt (before_passWhile _ _).left_le (left_advance_lt _h Nat.two_pos)
  · have hd := before_closeComment (c.advance 2)
    rw [_hc] at hd
    exact Nat.lt_of_le_of_lt hd.left_le (left_advance_lt _h Nat.two_pos)

theorem before_skipTrivia (c : Cursor) : c.Before c.skipTrivia.1 := by
  fun_induction skipTrivia c with
  | case1 c h ih => exact (before_nextLine c).trans ih
  | case2 c h ih | case3 c h ih | case4 c h ih => exact (before_advance c 1).trans ih
  | case5 c h hslash ih =>
    exact (before_advance c 2).trans ((before_passWhile _ _).trans ih)
  | case6 c h hstar d hclose ih =>
    have hd := before_closeComment (c.advance 2)
    rw [hclose] at hd
    exact (before_advance c 2).trans (hd.trans ih)
  | case7 c h hstar d hopen =>
    have hd := before_closeComment (c.advance 2)
    rw [hopen] at hd
    exact (before_advance c 2).trans hd
  | case8 | case9 => exact .refl _

end ScriptScan.Cursor
