import ScriptScan.Numeral
import ScriptScan.Reserved
import ScriptScan.Token
import ScriptScan.Proofs.Gap

/-!
# The lexicon

`Kind.Form` and `Kind.valueOf` tell which texts are lexemes of a kind and what they denote, without
a word on how they are found. A word is looked up as a whole (`Reserved.kindOf`), and the candidates
for a first letter are the tails of the words that begin with it (`Reserved.kindOf_cons`).
-/

namespace ScriptScan

open Trivia (Stops)

namespace Reserved

def words : List (String × Kind) :=
  [("let", .keyword .letKw), ("function", .keyword .functionKw), ("if", .keyword .ifKw),
    ("else", .keyword .elseKw), ("while", .keyword .whileKw), ("return", .keyword .returnKw),
    ("break", .keyword .breakKw), ("continue", .keyword .continueKw), ("number", .typeName),
    ("string", .typeName), ("boolean", .typeName), ("void", .typeName), ("null", .typeName),
    ("true", .boolean), ("false", .boolean)]

/-- The kind of a whole word. -/
def kindOf (word : List Char) : Kind :=
  ((words.find? fun w => w.1.toList == word).map (·.2)).getD .identifier

end Reserved

def IsWord (text : List Char) : Prop :=
  ∃ c tail, text = c :: tail ∧ isWordStart c = true ∧ ∀ d ∈ tail, isWordPart d = true

namespace Kind

def spellings : Kind → List String
  | dot => ["."]
  | colon => [":"]
  | semicolon => [";"]
  | comma => [","]
  | openParen => ["("]
  | closeParen => [")"]
  | openCurly => ["\x7b"]
  | closeCurly => ["\x7d"]
  | openBracket => ["["]
  | closeBracket => ["]"]
  | additive => ["+", "-"]
  | multiplicative => ["*", "/"]
  | not => ["!"]
  | equals => ["=="]
  | notEquals => ["!="]
  | assignment => ["="]
  | _ => []

/-- The kinds of words, reserved or not. -/
def isWord : Kind → Bool
  | boolean | keyword _ | typeName | identifier => true
  | _ => false

/-- The lexical form of a kind. -/
def Form (kind : Kind) (text : List Char) : Prop :=
  match kind with
  | number =>
    text ≠ [] ∧ (∀ d ∈ text, d.isDigit = true) ∧ Nat.ofDigitChars 10 text 0 ≤ Numeral.largest
  | string => ∃ body, text = '"' :: (body ++ ['"']) ∧ '"' ∉ body
  | boolean | keyword _ | typeName | identifier => IsWord text ∧ Reserved.kindOf text = kind
  | endOfInput => text = []
  | _ => ∃ s ∈ kind.spellings, text = s.toList

/-- What a text of a kind denotes: a number its decimal value, a string what stands between its
quotes, a truth value whether it is `true`. -/
def valueOf : Kind → List Char → Option Value
  | number, text => some (.number (Int64.ofNat (Nat.ofDigitChars 10 text 0)))
  | string, text => some (.string (String.ofList text.tail.dropLast))
  | boolean, text => some (.boolean (text == "true".toList))
  | _, _ => none

end Kind

namespace Kind

theorem form_of_isWord {kind : Kind} (h : kind.isWord = true) {text : List Char} :
    kind.Form text ↔ IsWord text ∧ Reserved.kindOf text = kind := by
  cases kind <;> first | rfl | cases h

theorem form_symbol {kind : Kind} {text : List Char}
    (h : ∃ s ∈ kind.spellings, text = s.toList) : kind.Form text := by
  obtain ⟨s, hs, ht⟩ := h
  cases kind <;> first | exact ⟨s, hs, ht⟩ | simp [spellings] at hs

theorem isWord_kindOf (word : List Char) : (Reserved.kindOf word).isWord = true := by
  have hwords : ∀ w ∈ Reserved.words, w.2.isWord = true := by decide
  unfold Reserved.kindOf
  cases hf : Reserved.words.find? fun w => w.1.toList == word with
  | none => rfl
  | some w => exact hwords w (List.mem_of_find?_eq_some hf)

end Kind

/-! ## Words -/

namespace Reserved

theorem isWordPart_of_mem_candidates {c : Char} {p : String × Kind} (h : p ∈ candidates c) :
    ∀ d ∈ p.1.toList, isWordPart d = true := by
  rw [← List.all_eq_true]
  unfold candidates at h
  split at h <;> simp at h <;> rcases h with rfl | rfl <;> decide

theorem candidates_ne_nil_of_mem_words :
    ∀ w ∈ words, ∀ c, w.1.toList.head? = some c → candidates c ≠ [] := by
  have hall : ∀ w ∈ words, w.1.toList.head?.all (fun c => candidates c != []) = true := by decide
  intro w hw c hc
  have := hall w hw
  rw [hc] at this
  simpa using this

/-- The candidates for a first letter are the tails of the reserved words that begin with it. -/
theorem kindOf_cons (c : Char) (tail : List Char) :
    kindOf (c :: tail) =
      (((candidates c).find? fun p => p.1.toList == tail).map (·.2)).getD .identifier := by
  by_cases hc : candidates c = []
  · have : words.find? (fun w => w.1.toList == c :: tail) = none := by
      rw [List.find?_eq_none]
      intro w hw heq
      exact candidates_ne_nil_of_mem_words w hw c (by simp [beq_iff_eq.1 heq]) hc
    simp [kindOf, this, hc]
  · unfold candidates at hc ⊢
    split at hc
    case h_13 => exact absurd rfl hc
    all_goals
      simp only [kindOf, ↓Char.isValue, words, List.find?, String.reduceToList, List.cons_beq_cons,
        Char.reduceBEq, BEq.rfl, Bool.true_and, Bool.false_and]
      repeat' split
      all_goals rfl

end Reserved

/-! ## Numbers -/

namespace Numeral

theorem le_ofDigitChars (digits : List Char) (n : Nat) : n ≤ Nat.ofDigitChars 10 digits n := by
  induction digits generalizing n with
  | nil => simp
  | cons d digits ih =>
    rw [Nat.ofDigitChars_cons]
    have := ih (10 * n + (d.toNat - '0'.toNat))
    omega

/-- Reading stops early only where the number is too large as a whole. -/
theorem valueFrom?_eq (digits : List Char) {n : Nat} (hn : n ≤ largest) :
    valueFrom? n digits =
      if Nat.ofDigitChars 10 digits n ≤ largest then some (Nat.ofDigitChars 10 digits n)
      else none := by
  induction digits generalizing n with
  | nil => simp [valueFrom?, hn]
  | cons d digits ih =>
    rw [Nat.ofDigitChars_cons, valueFrom?]
    by_cases h : 10 * n + digitValue d ≤ largest
    · simp only [h, if_true, ih h]
      rfl
    · have := le_ofDigitChars digits (10 * n + (d.toNat - '0'.toNat))
      rw [if_neg h, if_neg]
      unfold digitValue at h
      omega

theorem value?_eq (digits : List Char) :
    value? digits =
      if Nat.ofDigitChars 10 digits 0 ≤ largest then
        some (Int64.ofNat (Nat.ofDigitChars 10 digits 0))
      else none := by
  rw [value?, valueFrom?_eq digits (Nat.zero_le _)]
  split <;> rfl

end Numeral

end ScriptScan
