/-!
# Sets of characters as ranges

A property of characters is kept as an ascending list of closed ranges of code points, in which the
search stops at the first range past a code point.
-/

namespace ScriptScan.Text

/-- Membership in an ascending list of closed ranges, searched up to the first range past `n`. -/
def inRanges : List (Nat × Nat) → Nat → Bool
  | [], _ => false
  | (lo, hi) :: rest, n => lo ≤ n && (n ≤ hi || inRanges rest n)

end ScriptScan.Text
