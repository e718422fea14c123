import ScriptScan.Fault
import ScriptScan.Lexeme
import ScriptScan.Proofs.Lexicon

/-!
# Readings

Lexemes read character by character: `Reading.of` finds what a text begins with where no trivia
stands, the kind and value of a lexeme or the cause why there is none, and the text that is passed
either way. Passed text and rest make up the whole (`text_append_rest`).
-/

namespace ScriptScan

inductive Finding where
  | lexeme (kind : Kind) (value : Option Value)
  | trouble (cause : Cause)

/-- What stands at the beginning of a text, the text passed to see that, and the text after it. -/
structure Reading where
  finding : Finding
  text : List Char
  rest : List Char

namespace Reading

def number (cs : List Char) : Reading :=
  let digits := cs.takeWhile Char.isDigit
  let finding := match Numeral.value? digits with
    | some n => .lexeme .number (some (.number n))
    | none => .trouble (.numberTooLarge (String.ofList digits))
  ⟨finding, digits, cs.dropWhile Char.isDigit⟩

/-- A string literal behind its opening quote: it ends at the next quote, whatever stands before
that. -/
def string (cs : List Char) : Reading :=
  let body := cs.takeWhile (· != '"')
  match cs.dropWhile (· != '"') with
  | quote :: rest =>
    ⟨.lexeme .string (some (.string (String.ofList body))), '"' :: (body ++ [quote]), rest⟩
  | [] => ⟨.trouble .openString, '"' :: body, []⟩

/-- The whole word that begins with `c`. -/
def word (c : Char) (cs : List Char) : Reading :=
  let text := c :: cs.takeWhile isWordPart
  let kind := Reserved.kindOf text
  ⟨.lexeme kind (kind.valueOf text), text, cs.dropWhile isWordPart⟩

/-- A symbol of one character, a number, a word, or nothing known. -/
def single (c : Char) (cs : List Char) : Reading :=
  match symbolKind? c with
  | some kind => ⟨.lexeme kind none, [c], cs⟩
  | none =>
    if c.isDigit then number (c :: cs)
    else if isWordStart c then word c cs
    else ⟨.trouble (.unexpected c), [c], cs⟩

/-- Reads a text which begins with no trivia; there `/*` opens a comment that is never closed. -/
def of : List Char → Reading
  | [] => ⟨.lexeme .endOfInput none, [], []⟩
  | '"' :: cs => string cs
  | '/' :: '*' :: cs => ⟨.trouble .openComment, '/' :: '*' :: cs, []⟩
  | '=' :: '=' :: cs => ⟨.lexeme .equals none, ['=', '='], cs⟩
  | '!' :: '=' :: cs => ⟨.lexeme .notEquals none, ['!', '='], cs⟩
  | c :: cs => single c cs

theorem number_text_append_rest (cs : List Char) : (number cs).text ++ (number cs).rest = cs :=
  List.takeWhile_append_dropWhile

theorem string_text_append_rest (cs : List Char) :
    (string cs).text ++ (string cs).rest = '"' :: cs := by
  have h : cs.takeWhile (· != '"') ++ cs.dropWhile (· != '"') = cs :=
    List.takeWhile_append_dropWhile
  unfold string
  split
  · rename_i quote rest hd
    rw [hd] at h
    simp only [List.cons_append, List.append_assoc, List.nil_append]
    rw [h]
  · rename_i hd
    rw [hd, List.append_nil] at h
    simp [h]

theorem word_text_append_rest (c : Char) (cs : List Char) :
    (word c cs).text ++ (word c cs).rest = c :: cs := by
  simp [word, List.takeWhile_append_dropWhile]

theorem single_text_append_rest (c : Char) (cs : List Char) :
    (single c cs).text ++ (single c cs).rest = c :: cs := by
  unfold single
  split
  · rfl
  · split
    · exact number_text_append_rest _
    · split
      · exact word_text_append_rest c cs
      · rfl

theorem text_append_rest (cs : List Char) : (of cs).text ++ (of cs).rest = cs := by
  unfold of
  split
  · rfl
  · exact string_text_append_rest _
  · simp
  · rfl
  · rfl
  · exact single_text_append_rest _ _

end Reading

end ScriptScan
