import ScriptScan.Text.Cut

/-!
# Cursors

A cursor stands in front of a byte of a source and knows its line. It looks some bytes ahead and
moves forward byte by byte; only where it is moved behind a line feed as such does its line change.
-/

namespace ScriptScan

structure Cursor where
  source : String
  /-- The number of bytes behind the cursor. -/
  offset : Nat
  line : UInt32
  deriving DecidableEq

namespace Cursor

def start (source : String) : Cursor := ⟨source, 0, 1⟩

/-- The byte in front of which `n` more are ahead. -/
@[inline]
def peek? (c : Cursor) (n : Nat) : Option Char := Text.byte? c.source (c.offset + n)

@[inline]
def advance (c : Cursor) (n : Nat) : Cursor := { c with offset := c.offset + n }

/-- Behind a line feed. -/
@[inline]
def nextLine (c : Cursor) : Cursor := { c with offset := c.offset + 1, line := c.line + 1 }

/-- The number of bytes ahead. -/
def left (c : Cursor) : Nat := c.source.utf8ByteSize - c.offset

theorem left_advance_lt {c : Cursor} {d : Char} {n m : Nat} (h : c.peek? m = some d)
    (hn : 0 < n) : (c.advance n).left < c.left := by
  unfold peek? Text.byte? at h
  split at h
  · simp only [left, advance]
    omega
  · cases h

theorem left_nextLine_lt {c : Cursor} {d : Char} (h : c.peek? 0 = some d) :
    c.nextLine.left < c.left := left_advance_lt h Nat.one_pos

/-- `d` stands where `c` does, or further on. -/
structure Before (c d : Cursor) : Prop where
  source : d.source = c.source
  le : c.offset ≤ d.offset

theorem Before.refl (c : Cursor) : c.Before c := ⟨rfl, Nat.le_refl _⟩

theorem Before.trans {c d e : Cursor} (h : c.Before d) (h' : d.Before e) : c.Before e :=
  ⟨h'.source.trans h.source, Nat.le_trans h.le h'.le⟩

theorem before_advance (c : Cursor) (n : Nat) : c.Before (c.advance n) :=
  ⟨rfl, Nat.le_add_right _ _⟩

theorem before_nextLine (c : Cursor) : c.Before c.nextLine := ⟨rfl, Nat.le_succ _⟩

theorem Before.left_le {c d : Cursor} (h : c.Before d) : d.left ≤ c.left := by
  have := h.le
  rw [left, left, h.source]
  omega

/-- Behind the bytes which have a property. -/
@[specialize]
def passWhile (p : Char → Bool) (c : Cursor) : Cursor :=
  match _h : c.peek? 0 with
  | some d => if p d then passWhile p (c.advance 1) else c
  | none => c
termination_by c.left
decreasing_by exact left_advance_lt _h Nat.one_pos

theorem before_passWhile (p : Char → Bool) (c : Cursor) : c.Before (c.passWhile p) := by
  fun_induction passWhile p c with
  | case1 c d h hd ih => exact (before_advance c 1).trans ih
  | case2 c d h hd => exact .refl c
  | case3 c h => exact .refl c

end Cursor

end ScriptScan
