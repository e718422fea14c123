import ScriptScan.Kind
import ScriptScan.Text.Quoted

/-!
# Tokens

A token is a piece of source with its kind, its value if it is a literal, and the lines and offsets
between which it stands. `summary` shows a token on one line, `block` on several.
-/

namespace ScriptScan

/-- A byte offset into the source of a file. -/
structure Position where
  offset : UInt32
  file : String
  deriving DecidableEq, Repr

structure Span where
  start : Position
  stop : Position
  deriving DecidableEq, Repr

inductive Value where
  | number (n : Int64)
  | string (s : String)
  | boolean (b : Bool)
  deriving DecidableEq

namespace Value

/-- A number in decimal, a string in its quoted form, a truth value by its word. -/
def text : Value → String
  | number n => toString n.toInt
  | string s => s.quoted
  | boolean b => if b then "true" else "false"

end Value

structure Token where
  kind : Kind
  /-- The source text between the offsets of `span`. -/
  lexeme : String
  value : Option Value
  startLine : UInt32
  endLine : UInt32
  span : Span
  deriving DecidableEq

namespace Token

def isEnd (t : Token) : Bool := t.kind == .endOfInput

/-- The value between brackets, or the quoted lexeme of a token without one. -/
def content (t : Token) : String :=
  match t.value with
  | some v => "(" ++ v.text ++ ")"
  | none => t.lexeme.quoted

/-- Where the token begins, its span, its kind, and its value or lexeme, on one line. -/
def summary (t : Token) : String :=
  toString t.startLine.toNat ++ ":" ++ toString t.span.start.offset.toNat ++ ".." ++
    toString t.span.stop.offset.toNat ++ " " ++ t.kind.title ++ " " ++ t.content

def block (t : Token) : String :=
  "Token \x7b\nkind: " ++ t.kind.title ++ ",\nlexeme: " ++ t.lexeme.quoted ++ ",\nlines: " ++
    toString t.startLine.toNat ++ "-" ++ toString t.endLine.toNat ++ "\x7d"

end Token

end ScriptScan
