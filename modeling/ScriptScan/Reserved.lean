import ScriptScan.Kind

/-!
# Reserved words

The words which are no identifiers, kept by their first letter: `candidates` lists what may follow
the letter, in the order in which it is tried.
-/

namespace ScriptScan

def isWordStart (c : Char) : Bool := c.isAlpha || c == '_'

/-- `c` may stand in a word after its first character. -/
def isWordPart (c : Char) : Bool := c.isAlphanum || c == '_'

namespace Reserved

/-- What may follow a first letter, and the kind of the word. -/
def candidates : Char → List (String × Kind)
  | 'b' => [("reak", .keyword .breakKw), ("oolean", .typeName)]
  | 'c' => [("ontinue", .keyword .continueKw)]
  | 'e' => [("lse", .keyword .elseKw)]
  | 'f' => [("unction", .keyword .functionKw), ("alse", .boolean)]
  | 'i' => [("f", .keyword .ifKw)]
  | 'l' => [("et", .keyword .letKw)]
  | 'n' => [("umber", .typeName), ("ull", .typeName)]
  | 'r' => [("eturn", .keyword .returnKw)]
  | 's' => [("tring", .typeName)]
  | 't' => [("rue", .boolean)]
  | 'v' => [("oid", .typeName)]
  | 'w' => [("hile", .keyword .whileKw)]
  | _ => []

end Reserved

end ScriptScan
