import ScriptScan.Fault
import ScriptScan.Text.Blank
import ScriptScan.Text.Line

/-!
# Diagnostics

A fault is drawn against a source: its name and tip, its file, and below a gutter the line at its
position with a caret under the character there. Columns count characters, and the line stands
without its indentation. A position past the end of the source has no line; then the message stands
in its place.
-/

namespace ScriptScan

namespace Diagnostic

def isIndent (c : Char) : Bool := c == ' ' || c == '\t'

def indentation (l : Text.Line) : List Char := l.text.takeWhile isIndent

def unindented (l : Text.Line) : List Char := l.text.dropWhile isIndent

/-- The column of the line's offset behind the indentation, counted from 1. An offset inside the
indentation or inside a character counts as the first column. -/
def column (l : Text.Line) : Nat :=
  match Text.slice? l.text (Text.width (indentation l)) l.offset with
  | some before => before.length + 1
  | none => 1

/-- The widest column at which a caret can be drawn. -/
def widest : Nat := 65535

/-- `s` at the right of a field of `n` characters, filled up with `fill`. -/
def padLeft (fill : Char) (n : Nat) (s : String) : String :=
  String.ofList (List.replicate (n - s.length) fill) ++ s

def header (f : Fault) : String :=
  match f.cause.tip with
  | none => "Error: " ++ f.cause.name
  | some tip => "Error: " ++ f.cause.name ++ " (" ++ tip ++ ")"

def picture (l : Text.Line) : List String :=
  let number := toString l.number
  let bar := padLeft ' ' (number.length + 2) "|"
  [bar, number ++ " | " ++ String.ofList (Text.trimEnd (unindented l)),
    bar ++ " " ++ padLeft '-' (column l) "^"]

/-- The rows of a diagnostic; none if the caret stands too far right to be drawn. -/
def rows? (f : Fault) (source : String) : Option (List String) :=
  let top := [header f, "-> " ++ f.position.file]
  match Text.lineAt? source.toList f.position.offset.toNat with
  | none => some (top ++ [f.message])
  | some l => if column l ≤ widest then some (top ++ picture l) else none

def text (rows : List String) : String := String.join (rows.map (· ++ "\n"))

def render? (f : Fault) (source : String) : Option String := (rows? f source).map text

end Diagnostic

end ScriptScan
