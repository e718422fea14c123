/-!
# Spans of time

A span of time is shown in the largest unit of which it holds at least one, down to nanoseconds.
-/

namespace ScriptScan.Elapsed

/-- The digits of `n` behind the decimal point, out of `places`, without zeros at the end. -/
def fraction (places n : Nat) : List Char :=
  let digits := Nat.toDigits 10 n
  let padded := List.replicate (places - digits.length) '0' ++ digits
  (padded.reverse.dropWhile (· == '0')).reverse

def inUnit (nanos places : Nat) (unit : String) : String :=
  let whole := toString (nanos / Nat.pow 10 places)
  match fraction places (nanos % Nat.pow 10 places) with
  | [] => whole ++ unit
  | digits => whole ++ "." ++ String.ofList digits ++ unit

def text (nanos : Nat) : String :=
  if nanos < Nat.pow 10 3 then inUnit nanos 0 "ns"
  else if nanos < Nat.pow 10 6 then inUnit nanos 3 "µs"
  else if nanos < Nat.pow 10 9 then inUnit nanos 6 "ms"
  else inUnit nanos 9 "s"

end ScriptScan.Elapsed
