import ScriptScan.Fault

/-!
# Events

What a scan reports while it goes on, as named fields of text in the order of their names.
-/

namespace ScriptScan

inductive Level where
  | debug | trace
  deriving DecidableEq, Repr

inductive Event where
  /-- A source of some bytes is about to be scanned. -/
  | started (file : String) (bytes : Nat)
  /-- A token was found. -/
  | scanned (token : Token)
  /-- A string literal which began on `line` was cut off by the end of the input. -/
  | stringCut (line : UInt32)
  /-- A block comment which began on `line` was cut off by the end of the input. -/
  | commentCut (line : UInt32)
  /-- A scan failed at a byte offset. -/
  | failed (fault : Fault) (offset : Nat)
  deriving DecidableEq

namespace Event

def level : Event → Level
  | scanned _ => .trace
  | _ => .debug

def fields : Event → List (String × String)
  | started file bytes =>
    [("file", file), ("len", toString bytes), ("message", "starting scan session")]
  | scanned token =>
    [("kind", token.kind.title), ("lexeme", token.lexeme),
      ("line", toString token.startLine.toNat), ("message", "scanned token")]
  | stringCut line =>
    [("line", toString line.toNat), ("message", "string literal runs to end of input")]
  | commentCut line =>
    [("line", toString line.toNat), ("message", "block comment runs to end of input")]
  | failed fault offset =>
    [("file", fault.position.file), ("message", fault.message), ("offset", toString offset)]

end Event

end ScriptScan
