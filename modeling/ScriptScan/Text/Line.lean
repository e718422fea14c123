import ScriptScan.Text.Width

/-!
# Lines

A text falls into pieces, each of which ends with its line feed except perhaps for the last. The
line at an offset is the piece that contains the byte there. No piece contains the end of the text,
which belongs to the last line: to the last piece if that has no line feed, else to an empty line
behind it.
-/

namespace ScriptScan.Text

/-- The pieces of a text, in order; none is empty. -/
def pieces (cs : List Char) : List (List Char) :=
  cs.foldr
    (fun c ps =>
      if c = '\n' then ['\n'] :: ps
      else match ps with
        | [] => [[c]]
        | p :: ps => (c :: p) :: ps)
    []

/-- A line, its number counted from 1, and an offset within it. -/
structure Line where
  number : Nat
  text : List Char
  offset : Nat
  deriving DecidableEq, Repr

/-- The piece that contains an offset, as a line, or the number of a line behind all pieces. The
first of them begins at `start` and has the given number. -/
def lineAmong (offset number start : Nat) : List (List Char) → Line ⊕ Nat
  | [] => .inr number
  | p :: ps =>
    let stop := start + width p
    if start ≤ offset ∧ offset < stop then .inl ⟨number, p, offset - start⟩
    else lineAmong offset (number + 1) stop ps

/-- The text behind the last line feed, none if there is no line feed. -/
def lastLine? (cs : List Char) : Option (List Char) :=
  if '\n' ∈ cs then some (cs.reverse.takeWhile (· != '\n')).reverse else none

/-- The line at the end of a text, where a line behind all its pieces has the given number. -/
def lineAtEnd (cs : List Char) (number : Nat) : Line :=
  match lastLine? cs with
  | some [] => ⟨number, [], 0⟩
  | some last => ⟨number - 1, last, width last⟩
  | none => ⟨1, cs, width cs⟩

def lineAt? (cs : List Char) (offset : Nat) : Option Line :=
  if width cs < offset then none
  else match lineAmong offset 1 0 (pieces cs) with
    | .inl l => some l
    | .inr number => some (lineAtEnd cs number)

end ScriptScan.Text
