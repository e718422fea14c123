/-!
# Numerals

A run of decimal digits denotes a number as long as the number is at most the largest signed word
of 64 bits; zeros in front count for nothing.
-/

namespace ScriptScan.Numeral

/-- The largest number that a literal can denote. -/
def largest : Nat := 9223372036854775807

def digitValue (d : Char) : Nat := d.toNat - '0'.toNat

/-- The number denoted by the digits that led to `n` and those which follow; none as soon as it is
too large. -/
def valueFrom? (n : Nat) : List Char → Option Nat
  | [] => some n
  | d :: ds =>
    let m := 10 * n + digitValue d
    if m ≤ largest then valueFrom? m ds else none

def value? (digits : List Char) : Option Int64 := (valueFrom? 0 digits).map Int64.ofNat

end ScriptScan.Numeral
