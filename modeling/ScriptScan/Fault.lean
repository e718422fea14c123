import ScriptScan.Token

/-!
# Faults

Why a text could not be scanned, and where. The wording of each cause stands here once.
-/

namespace ScriptScan

inductive Cause where
  /-- A character with which nothing begins. -/
  | unexpected (c : Char)
  /-- A string literal without its closing quote. -/
  | openString
  /-- A block comment without its closing mark. -/
  | openComment
  /-- A number above the largest one. -/
  | numberTooLarge (digits : String)
  deriving DecidableEq, Repr

structure Fault where
  cause : Cause
  line : UInt32
  position : Position
  deriving DecidableEq, Repr

namespace Cause

def name : Cause → String
  | unexpected _ => "UnexpectedToken"
  | openString => "UnterminatedString"
  | openComment => "UnterminatedComment"
  | numberTooLarge _ => "NumberParseError"

def tip : Cause → Option String
  | unexpected _ => none
  | openString => some "String literal is missing its closing `\"`"
  | openComment => some "Block comment is missing its closing `*/`"
  | numberTooLarge digits =>
    some ("Invalid number: `" ++ digits ++ "`, is it above the integer limit?")

/-- The cause in words, without its line. -/
def phrase : Cause → String
  | unexpected c => "Unexpected token '" ++ c.toString ++ "' at"
  | openString => "Unterminated string literal starting at"
  | openComment => "Unterminated block comment starting at"
  | numberTooLarge digits => "error parsing number: " ++ digits.quoted ++ " at"

end Cause

namespace Fault

def message (f : Fault) : String := f.cause.phrase ++ " line " ++ toString f.line.toNat

end Fault

end ScriptScan
