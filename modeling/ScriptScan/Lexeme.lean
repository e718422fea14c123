import ScriptScan.Reserved
import ScriptScan.Trivia

/-!
# Lexemes

How the bytes of one lexeme are passed behind the first of them: symbols, which may go on with an
equals sign, reserved words, which are tried in the order in which they are listed, and string
literals. None of this cuts the source.
-/

namespace ScriptScan

def symbolKind? : Char → Option Kind
  | '.' => some .dot
  | ':' => some .colon
  | ';' => some .semicolon
  | ',' => some .comma
  | '(' => some .openParen
  | ')' => some .closeParen
  | '\x7b' => some .openCurly
  | '\x7d' => some .closeCurly
  | '[' => some .openBracket
  | ']' => some .closeBracket
  | '+' => some .additive
  | '-' => some .additive
  | '*' => some .multiplicative
  | '/' => some .multiplicative
  | '=' => some .assignment
  | '!' => some .not
  | _ => none

namespace Cursor

/-- The kind of a symbol to which an equals sign belongs if one is ahead, and the cursor behind
it. -/
def symbolWithEquals (c : Cursor) (short long : Kind) : Kind × Cursor :=
  if c.peek? 0 = some '=' then (long, c.advance 1) else (short, c)

/-- The kind of the symbol that begins with `d`, which is passed, and the cursor behind it. -/
def symbol? (c : Cursor) : Char → Option (Kind × Cursor)
  | '=' => some (c.symbolWithEquals .assignment .equals)
  | '!' => some (c.symbolWithEquals .not .notEquals)
  | d => (symbolKind? d).map fun kind => (kind, c)

/-- The bytes of a word are ahead; each of its characters takes one. -/
def spells (c : Cursor) : List Char → Bool
  | [] => true
  | d :: ds => c.peek? 0 == some d && (c.advance 1).spells ds

/-- What is ahead is `suffix`, and the word ends behind it: so `letter` is not `let` and a tail. -/
def followedBy (c : Cursor) (suffix : String) : Bool :=
  c.spells suffix.toList && !(c.peek? suffix.utf8ByteSize).any isWordPart

/-- The kind of the first of some words of which the rest is ahead, and the cursor behind it. -/
def keyword? (c : Cursor) : List (String × Kind) → Option (Kind × Cursor)
  | [] => none
  | (suffix, kind) :: others =>
    if c.followedBy suffix then some (kind, c.advance suffix.utf8ByteSize) else c.keyword? others

theorem before_symbol? {c stop : Cursor} {d : Char} {kind : Kind}
    (h : c.symbol? d = some (kind, stop)) : c.Before stop := by
  have hlong {short long : Kind} (h : c.symbolWithEquals short long = (kind, stop)) :
      c.Before stop := by
    unfold symbolWithEquals at h
    split at h <;> cases h
    · exact before_advance c 1
    · exact .refl c
  unfold symbol? at h
  split at h
  · exact hlong (Option.some.inj h)
  · exact hlong (Option.some.inj h)
  · obtain ⟨_, -, heq⟩ := Option.map_eq_some_iff.1 h
    cases heq
    exact .refl c

theorem before_keyword? {c stop : Cursor} {options : List (String × Kind)} {kind : Kind}
    (h : c.keyword? options = some (kind, stop)) : c.Before stop := by
  induction options with
  | nil => cases h
  | cons option options ih =>
    rw [keyword?] at h
    split at h
    · cases h
      exact before_advance c _
    · exact ih h

/-- Behind the quote that ends a string literal, and whether there is one. An open literal is passed
up to the end of the source. -/
def closeString (c : Cursor) : Cursor × Bool :=
  match _h : c.peek? 0 with
  | some '"' => (c.advance 1, true)
  | some '\n' => c.nextLine.closeString
  | some _ => (c.advance 1).closeString
  | none => (c, false)
termination_by c.left
decreasing_by
  · exact left_nextLine_lt _h
  · exact left_advance_lt _h Nat.one_pos

theorem before_closeString (c : Cursor) : c.Before c.closeString.1 := by
  fun_induction closeString c with
  | case1 c h => exact before_advance c 1
  | case2 c h ih => exact (before_nextLine c).trans ih
  | case3 c d hquote hfeed h ih => exact (before_advance c 1).trans ih
  | case4 c h => exact .refl c

end Cursor

end ScriptScan
