import ScriptScan.Text.Combining
import ScriptScan.Text.Printable

/-!
# Quoted text

The form in which a text is shown inside a message: between double quotes, on one line, and with
every character recognisable. Quotes, backslashes and the usual controls have a letter after a
backslash; combining characters and those which cannot be printed are written by their code point.
-/

namespace ScriptScan.Text

/-- The letter that stands for `c` after a backslash. -/
def escapeLetter? : Char → Option Char
  | '\x00' => some '0'
  | '\t' => some 't'
  | '\r' => some 'r'
  | '\n' => some 'n'
  | '"' => some '"'
  | '\\' => some '\\'
  | _ => none

def quoteChar (c : Char) : List Char :=
  match escapeLetter? c with
  | some letter => ['\\', letter]
  | none =>
    if isCombining c || !isPrintable c then
      '\\' :: 'u' :: '\x7b' :: (Nat.toDigits 16 c.toNat ++ ['\x7d'])
    else [c]

def quote (cs : List Char) : List Char := '"' :: (cs.flatMap quoteChar ++ ['"'])

end ScriptScan.Text

def String.quoted (s : String) : String := String.ofList (ScriptScan.Text.quote s.toList)
