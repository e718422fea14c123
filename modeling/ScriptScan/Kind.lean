/-!
# Kinds of tokens

Punctuation and operators, literals, keywords, the names of the built-in types, identifiers, and
the end of the input.
-/

namespace ScriptScan

inductive Keyword where
  | letKw | functionKw | ifKw | elseKw | whileKw | returnKw | breakKw | continueKw
  deriving DecidableEq, Repr

namespace Keyword

def all : List Keyword :=
  [letKw, functionKw, ifKw, elseKw, whileKw, returnKw, breakKw, continueKw]

/-- The word with a capital letter. -/
def title : Keyword → String
  | letKw => "Let"
  | functionKw => "Function"
  | ifKw => "If"
  | elseKw => "Else"
  | whileKw => "While"
  | returnKw => "Return"
  | breakKw => "Break"
  | continueKw => "Continue"

end Keyword

/-- The category of a token. `additive` holds `+` and `-`, `multiplicative` holds `*` and `/`. -/
inductive Kind where
  | dot | colon | semicolon | comma
  | openParen | closeParen | openCurly | closeCurly | openBracket | closeBracket
  | additive | multiplicative
  | not | equals | notEquals | assignment
  | number | string | boolean
  | keyword (word : Keyword)
  | typeName
  | identifier
  | endOfInput
  deriving DecidableEq, Repr

namespace Kind

def all : List Kind :=
  [dot, colon, semicolon, comma, openParen, closeParen, openCurly, closeCurly, openBracket,
    closeBracket, additive, multiplicative, not, equals, notEquals, assignment, number, string,
    boolean] ++ Keyword.all.map keyword ++ [typeName, identifier, endOfInput]

/-- A symbol shows as itself, or as the first of those which share its kind; all others have a
capitalised word. -/
def title : Kind → String
  | dot => "."
  | colon => ":"
  | semicolon => ";"
  | comma => ","
  | openParen => "("
  | closeParen => ")"
  | openCurly => "\x7b"
  | closeCurly => "\x7d"
  | openBracket => "["
  | closeBracket => "]"
  | additive => "+"
  | multiplicative => "*"
  | not => "!"
  | equals => "=="
  | notEquals => "!="
  | assignment => "="
  | number => "Number"
  | string => "String"
  | boolean => "Boolean"
  | keyword word => word.title
  | typeName => "Type"
  | identifier => "Identifier"
  | endOfInput => "Eof"

def isKeyword : Kind → Bool
  | keyword _ => true
  | _ => false

theorem mem_all (k : Kind) : k ∈ all := by
  cases k with
  | keyword word => cases word <;> decide
  | _ => decide

end Kind

end ScriptScan
