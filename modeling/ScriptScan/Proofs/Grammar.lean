import ScriptScan.Proofs.Reading

/-!
# What a text begins with

`Reading.Reads` tells case by case how a text without trivia in front is read: as a lexeme behind
which nothing stands that would lengthen it, or as one of four troubles. `Reading.of` reads so and
in no other way (`Reading.reads_iff`); hence a lexeme is read alike wherever it stands, as long as
what follows does not lengthen it.
-/

namespace ScriptScan

open Trivia (Stops)

theorem isWordPart_eq (c : Char) : isWordPart c = (isWordStart c || c.isDigit) := by
  simp only [isWordPart, isWordStart, Char.isAlphanum]
  cases c.isAlpha <;> cases c.isDigit <;> simp

theorem isWordStart_of_isDigit {c : Char} (h : c.isDigit = true) : isWordStart c = false := by
  simp only [Char.isDigit, Bool.and_eq_true, decide_eq_true_eq, ge_iff_le,
    UInt32.le_iff_toNat_le] at h
  change 48 ≤ c.toNat ∧ c.toNat ≤ 57 at h
  rw [Bool.eq_false_iff]
  intro hw
  change (decide (65 ≤ c.toNat ∧ c.toNat ≤ 90) ||
    (decide (97 ≤ c.toNat) && decide (c.toNat ≤ 122)) || c == '_') = true at hw
  simp only [Bool.or_eq_true, Bool.and_eq_true, decide_eq_true_eq, beq_iff_eq] at hw
  rcases hw with (hw | hw) | rfl
  · omega
  · omega
  · exact absurd h.2 (by decide)

def begins (c : Char) : Bool := isWordPart c || "\".:;,()\x7b\x7d[]+-*/=!".toList.contains c

theorem symbolKind?_eq_some_iff {c : Char} {kind : Kind} :
    symbolKind? c = some kind ↔ ∃ s ∈ kind.spellings, [c] = s.toList := by
  constructor
  · intro h
    unfold symbolKind? at h
    split at h <;> cases h <;> simp [Kind.spellings]
  · rintro ⟨s, hs, hc⟩
    cases kind <;> simp only [Kind.spellings, List.mem_cons, List.not_mem_nil, or_false] at hs
    case additive | multiplicative =>
      rcases hs with rfl | rfl <;> simp at hc <;> rw [hc] <;> rfl
    all_goals subst hs; simp at hc
    all_goals rw [hc]; rfl

theorem symbol_cases {kind : Kind} {text : List Char} (h : ∃ s ∈ kind.spellings, text = s.toList) :
    (∃ c, text = [c] ∧ symbolKind? c = some kind) ∨
      (kind = .equals ∧ text = ['=', '=']) ∨ (kind = .notEquals ∧ text = ['!', '=']) := by
  obtain ⟨s, hs, rfl⟩ := h
  cases kind <;> simp only [Kind.spellings, List.mem_cons, List.not_mem_nil, or_false] at hs
  case equals | notEquals => simp [hs]
  case additive | multiplicative => rcases hs with rfl | rfl <;> exact Or.inl ⟨_, rfl, rfl⟩
  all_goals subst hs; exact Or.inl ⟨_, rfl, rfl⟩

theorem begins_iff (c : Char) : begins c = true ↔
    isWordStart c = true ∨ c.isDigit = true ∨ c = '"' ∨ symbolKind? c ≠ none := by
  have hs : c = '"' ∨ symbolKind? c ≠ none ↔
      "\".:;,()\x7b\x7d[]+-*/=!".toList.contains c = true := by
    constructor
    · rintro (rfl | h)
      · decide
      · unfold symbolKind? at h
        split at h
        all_goals first | decide | exact absurd rfl h
    · intro h
      simp only [String.reduceToList, List.contains_iff_mem, List.mem_cons, List.not_mem_nil,
        or_false] at h
      rcases h with rfl | h
      · exact Or.inl rfl
      · refine Or.inr ?_
        rcases h with rfl | rfl | rfl | rfl | rfl | rfl | rfl | rfl | rfl | rfl | rfl | rfl | rfl |
          rfl | rfl | rfl <;> simp [symbolKind?]
  rw [hs, begins, isWordPart_eq, Bool.or_eq_true, Bool.or_eq_true, or_assoc]

namespace Reading

/-- The characters that may not stand right behind a lexeme: it would go on with them, or they
would turn a slash into the beginning of a comment. Nothing stands behind the end of the input. -/
def grows : List Char → Char → Bool
  | [], _ => true
  | ['='], d => d == '='
  | ['!'], d => d == '='
  | ['/'], d => d == '/' || d == '*'
  | c :: _, d => c.isDigit && d.isDigit || isWordStart c && isWordPart d

/-- How a text without trivia in front is read. -/
inductive Reads : List Char → Reading → Prop
  | lexeme (kind : Kind) (text rest : List Char) (h : kind.Form text)
    (hr : Stops (grows text) rest) :
    Reads (text ++ rest) ⟨.lexeme kind (kind.valueOf text), text, rest⟩
  | openString {body : List Char} (h : '"' ∉ body) :
    Reads ('"' :: body) ⟨.trouble .openString, '"' :: body, []⟩
  | openComment {body : List Char} (h : ¬ ['*', '/'] <:+: body) :
    Reads ('/' :: '*' :: body) ⟨.trouble .openComment, '/' :: '*' :: body, []⟩
  | tooLarge {digits rest : List Char} (hne : digits ≠ [])
    (hd : ∀ d ∈ digits, d.isDigit = true) (hr : Stops Char.isDigit rest)
    (hl : Numeral.largest < Nat.ofDigitChars 10 digits 0) :
    Reads (digits ++ rest)
      ⟨.trouble (.numberTooLarge (String.ofList digits)), digits, rest⟩
  | unexpected {c : Char} {rest : List Char} (h : begins c = false)
    (hs : Trivia.isSpacing c = false) :
    Reads (c :: rest) ⟨.trouble (.unexpected c), [c], rest⟩

/-! ## What lengthens a lexeme -/

theorem eq_nil_of_grows_nil {rest : List Char} (h : Stops (grows []) rest) : rest = [] := by
  rcases rest with _ | ⟨c, rest⟩
  · rfl
  · exact absurd (h c rfl) (by simp [grows])

theorem grows_of_isDigit {c : Char} (h : c.isDigit = true) (cs : List Char) :
    grows (c :: cs) = Char.isDigit := by
  funext d
  unfold grows
  split <;> simp_all [isWordStart_of_isDigit]

theorem grows_of_isWordStart {c : Char} (h : isWordStart c = true) (cs : List Char) :
    grows (c :: cs) = isWordPart := by
  have hd : c.isDigit = false := by
    rw [Bool.eq_false_iff]
    intro hd
    rw [isWordStart_of_isDigit hd] at h
    cases h
  have hsym : c ≠ '=' ∧ c ≠ '!' ∧ c ≠ '/' := by
    refine ⟨?_, ?_, ?_⟩ <;> rintro rfl <;> exact absurd h (by decide)
  funext d
  unfold grows
  split <;> simp_all

theorem grows_quote (cs : List Char) (d : Char) : grows ('"' :: cs) d = false := rfl

theorem grows_symbol {c d : Char} (hw : isWordPart c = false)
    (he : c = '=' ∨ c = '!' → d ≠ '=') (hs : c = '/' → d ≠ '/' ∧ d ≠ '*') :
    grows [c] d = false := by
  rw [isWordPart_eq, Bool.or_eq_false_iff] at hw
  unfold grows
  split <;> simp_all

theorem grows_iff {kind : Kind} {text : List Char} (h : kind.Form text) (hk : kind ≠ .endOfInput)
    (d : Char) : grows text d = true ↔
      kind.isWord = true ∧ isWordPart d = true ∨ kind = .number ∧ d.isDigit = true ∨
        (text = ['='] ∨ text = ['!']) ∧ d = '=' ∨ text = ['/'] ∧ (d = '/' ∨ d = '*') := by
  cases kind
  case number =>
    obtain ⟨hne, hd, -⟩ := h
    obtain ⟨c, cs, rfl⟩ := List.exists_cons_of_ne_nil hne
    have hc := hd c List.mem_cons_self
    have hsym : c ≠ '=' ∧ c ≠ '!' ∧ c ≠ '/' := by
      refine ⟨?_, ?_, ?_⟩ <;> rintro rfl <;> exact absurd hc (by decide)
    simp [grows_of_isDigit hc, hsym, Kind.isWord]
  case string =>
    obtain ⟨body, rfl, -⟩ := h
    simp [grows_quote, Kind.isWord]
  case boolean | keyword | typeName | identifier =>
    obtain ⟨⟨c, tail, rfl, hc, -⟩, -⟩ := h
    have hsym : c ≠ '=' ∧ c ≠ '!' ∧ c ≠ '/' := by
      refine ⟨?_, ?_, ?_⟩ <;> rintro rfl <;> exact absurd hc (by decide)
    simp [grows_of_isWordStart hc, hsym, Kind.isWord]
  case endOfInput => exact absurd rfl hk
  all_goals
    obtain ⟨s, hs, rfl⟩ := h
    simp only [Kind.spellings, List.mem_cons, List.not_mem_nil, or_false] at hs
    rcases hs with rfl | rfl <;> simp +decide [grows]

/-! ## Each way of reading is taken -/

theorem symbolKind?_of_isWordPart {c : Char} (h : isWordPart c = true) : symbolKind? c = none := by
  unfold symbolKind?
  split
  all_goals first | rfl | exact absurd h (by decide)

theorem of_cons_of_isWordPart {c : Char} (h : isWordPart c = true) (cs : List Char) :
    of (c :: cs) = if c.isDigit then number (c :: cs) else word c cs := by
  rw [of]
  · rw [single, symbolKind?_of_isWordPart h]
    have hw := h
    rw [isWordPart_eq, Bool.or_eq_true] at hw
    by_cases hd : c.isDigit = true
    · simp [hd]
    · simp [hd, hw.resolve_right hd]
  · rintro rfl
    exact absurd h (by decide)
  all_goals
    rintro _ rfl
    exact absurd h (by decide)

def ofDigits (digits rest : List Char) : Reading :=
  ⟨match Numeral.value? digits with
    | some n => .lexeme .number (some (.number n))
    | none => .trouble (.numberTooLarge (String.ofList digits)), digits, rest⟩

theorem of_digits {digits rest : List Char} (hne : digits ≠ [])
    (hd : ∀ d ∈ digits, d.isDigit = true) (hr : Stops Char.isDigit rest) :
    of (digits ++ rest) = ofDigits digits rest := by
  have hnumber : number (digits ++ rest) = ofDigits digits rest := by
    simp only [number, List.takeWhile_append_of_pos hd, List.dropWhile_append_of_pos hd,
      hr.takeWhile, hr.dropWhile, List.append_nil]
    rfl
  obtain ⟨c, ds, rfl⟩ := List.exists_cons_of_ne_nil hne
  have hc := hd c List.mem_cons_self
  rw [← hnumber, List.cons_append, of_cons_of_isWordPart (by simp [isWordPart_eq, hc]), if_pos hc]

theorem of_word {c : Char} {tail rest : List Char} (hc : isWordStart c = true)
    (ht : ∀ d ∈ tail, isWordPart d = true) (hr : Stops isWordPart rest) :
    of (c :: tail ++ rest) =
      ⟨.lexeme (Reserved.kindOf (c :: tail)) ((Reserved.kindOf (c :: tail)).valueOf (c :: tail)),
        c :: tail, rest⟩ := by
  have hd : c.isDigit ≠ true := fun hd => by
    rw [isWordStart_of_isDigit hd] at hc
    cases hc
  rw [List.cons_append, of_cons_of_isWordPart (by simp [isWordPart_eq, hc]), if_neg hd, word,
    List.takeWhile_append_of_pos ht, List.dropWhile_append_of_pos ht, hr.takeWhile, hr.dropWhile,
    List.append_nil]

theorem of_string {body : List Char} (hb : '"' ∉ body) (rest : List Char) :
    of ('"' :: (body ++ '"' :: rest)) =
      ⟨.lexeme .string (some (.string (String.ofList body))), '"' :: (body ++ ['"']), rest⟩ := by
  have hall := Trivia.all_ne_of_notMem hb
  simp [of, string, List.takeWhile_append_of_pos hall, List.dropWhile_append_of_pos hall]

theorem of_openString {body : List Char} (hb : '"' ∉ body) :
    of ('"' :: body) = ⟨.trouble .openString, '"' :: body, []⟩ := by
  have hall := Trivia.all_ne_of_notMem hb
  have htake : (body ++ []).takeWhile (· != '"') = _ := List.takeWhile_append_of_pos hall
  have hdrop : (body ++ []).dropWhile (· != '"') = _ := List.dropWhile_append_of_pos hall
  rw [List.append_nil] at htake hdrop
  simp [of, string, htake, hdrop]

theorem of_symbolKind {c : Char} {kind : Kind} {rest : List Char} (h : symbolKind? c = some kind)
    (hr : Stops (grows [c]) rest) : of (c :: rest) = ⟨.lexeme kind none, [c], rest⟩ := by
  rw [of]
  · simp [single, h]
  · rintro rfl
    cases h
  all_goals
    rintro cs rfl rfl
    exact absurd (hr _ rfl) (by decide)

theorem valueOf_symbol {kind : Kind} {text : List Char}
    (h : ∃ s ∈ kind.spellings, text = s.toList) : kind.valueOf text = none := by
  obtain ⟨s, hs, -⟩ := h
  cases kind <;> first | rfl | simp [Kind.spellings] at hs

theorem of_of_reads {cs : List Char} {r : Reading} (h : Reads cs r) : of cs = r := by
  cases h with
  | lexeme kind text rest h hr =>
    cases kind
    case number =>
      obtain ⟨hne, hd, hle⟩ := h
      obtain ⟨c, ds, rfl⟩ := List.exists_cons_of_ne_nil hne
      rw [grows_of_isDigit (hd c List.mem_cons_self)] at hr
      rw [of_digits hne hd hr, ofDigits, Numeral.value?_eq, if_pos hle]
      rfl
    case string =>
      obtain ⟨body, rfl, hb⟩ := h
      have := of_string hb rest
      simpa [Kind.valueOf] using this
    case boolean | keyword | typeName | identifier =>
      obtain ⟨⟨c, tail, rfl, hc, ht⟩, hk⟩ := h
      rw [grows_of_isWordStart hc] at hr
      rw [of_word hc ht hr, hk]
    case endOfInput =>
      cases h
      rw [eq_nil_of_grows_nil hr]
      rfl
    all_goals
      rw [valueOf_symbol h]
      rcases symbol_cases h with ⟨c, rfl, hc⟩ | ⟨hk, rfl⟩ | ⟨hk, rfl⟩
      · exact of_symbolKind hc hr
      · cases hk <;> rfl
      · cases hk <;> rfl
  | openString h => exact of_openString h
  | openComment _ => rfl
  | tooLarge hne hd hr hl =>
    rw [of_digits hne hd hr, ofDigits, Numeral.value?_eq, if_neg (by omega)]
  | @unexpected c rest h _ =>
    rw [Bool.eq_false_iff, Ne, begins_iff] at h
    simp only [not_or, ne_eq, Classical.not_not] at h
    obtain ⟨hw, hd, hq, hs⟩ := h
    rw [of]
    · simp [single, hs, hd, hw]
    · exact hq
    all_goals
      rintro _ rfl
      cases hs

/-- A lexeme other than the end of the input begins with a fitting character, and with a slash
only if it is one. -/
theorem begins_of_form {kind : Kind} {text : List Char} (h : kind.Form text) :
    (kind = .endOfInput ∧ text = []) ∨
      ∃ c cs, text = c :: cs ∧ begins c = true ∧ (c = '/' → cs = []) := by
  cases kind
  case number =>
    obtain ⟨hne, hd, -⟩ := h
    obtain ⟨c, cs, rfl⟩ := List.exists_cons_of_ne_nil hne
    have hc := hd c List.mem_cons_self
    refine Or.inr ⟨c, cs, rfl, (begins_iff c).2 (Or.inr (Or.inl hc)), ?_⟩
    rintro rfl
    exact absurd hc (by decide)
  case string =>
    obtain ⟨body, rfl, -⟩ := h
    exact Or.inr ⟨_, _, rfl, by decide, fun hc => absurd hc (by decide)⟩
  case boolean | keyword | typeName | identifier =>
    obtain ⟨⟨c, tail, rfl, hc, -⟩, -⟩ := h
    refine Or.inr ⟨c, tail, rfl, (begins_iff c).2 (Or.inl hc), ?_⟩
    rintro rfl
    exact absurd hc (by decide)
  case endOfInput => exact Or.inl ⟨rfl, h⟩
  all_goals
    rcases symbol_cases h with ⟨c, rfl, hc⟩ | ⟨-, rfl⟩ | ⟨-, rfl⟩
    · refine Or.inr ⟨c, [], rfl, (begins_iff c).2 (Or.inr (Or.inr (Or.inr ?_))), fun _ => rfl⟩
      rw [hc]
      exact Option.some_ne_none _
    all_goals exact Or.inr ⟨_, _, rfl, by decide, fun hc => absurd hc (by decide)⟩

theorem ne_nil_of_form {kind : Kind} {text : List Char} (h : kind.Form text)
    (hk : kind ≠ .endOfInput) : text ≠ [] := by
  rcases begins_of_form h with ⟨hk', -⟩ | ⟨c, cs, rfl, -⟩
  · exact absurd hk' hk
  · exact List.cons_ne_nil c cs

theorem piece?_of_begins {c : Char} (h : begins c = true) (hc : c ≠ '/') (cs : List Char) :
    Trivia.piece? (c :: cs) = none := by
  have hs : Trivia.isSpacing c = false := by
    rw [Bool.eq_false_iff]
    intro hs
    simp only [Trivia.isSpacing, Bool.or_eq_true, beq_iff_eq] at hs
    rcases hs with ((rfl | rfl) | rfl) | rfl <;> exact absurd h (by decide)
  rw [Trivia.piece?]
  · simp [hs]
  all_goals
    rintro _ rfl
    exact absurd rfl hc

theorem piece?_of_reads {cs : List Char} {r : Reading} (h : Reads cs r) :
    Trivia.piece? cs = none := by
  cases h with
  | lexeme kind text rest h hr =>
    rcases begins_of_form h with ⟨-, rfl⟩ | ⟨c, cs, rfl, hc, hslash⟩
    · rw [eq_nil_of_grows_nil hr]
      rfl
    · by_cases hne : c = '/'
      · subst hne
        rw [hslash rfl] at hr ⊢
        rw [List.singleton_append, Trivia.piece?]
        · rfl
        all_goals
          rintro _ - rfl
          exact absurd (hr _ rfl) (by decide)
      · exact piece?_of_begins hc hne _
  | openString h => exact piece?_of_begins (by decide) (by decide) _
  | openComment h => exact Trivia.closeFrom_eq_none_iff.2 h
  | tooLarge hne hd hr hl =>
    obtain ⟨c, ds, rfl⟩ := List.exists_cons_of_ne_nil hne
    have hc := hd c List.mem_cons_self
    refine piece?_of_begins ((begins_iff c).2 (Or.inr (Or.inl hc))) ?_ _
    rintro rfl
    exact absurd hc (by decide)
  | @unexpected c rest h hs =>
    rw [Trivia.piece?]
    · simp [hs]
    all_goals
      rintro _ rfl
      exact absurd h (by decide)

/-! ## There is no other way -/

theorem reads_string (cs : List Char) : Reads ('"' :: cs) (string cs) := by
  have hcs : cs.takeWhile (· != '"') ++ cs.dropWhile (· != '"') = cs :=
    List.takeWhile_append_dropWhile
  have hb : '"' ∉ cs.takeWhile (· != '"') := fun h => by
    simpa using List.all_eq_true.1 List.all_takeWhile _ h
  have hstop := Trivia.stops_dropWhile (· != '"') cs
  unfold string
  split
  · rename_i quote rest hd
    rw [hd] at hcs hstop
    obtain rfl : quote = '"' := by simpa using hstop quote rfl
    have := Reads.lexeme .string _ rest ⟨_, rfl, hb⟩ fun d _ => grows_quote _ d
    simpa [Kind.valueOf, hcs] using this
  · rename_i hd
    rw [hd, List.append_nil] at hcs
    rw [hcs] at hb ⊢
    exact .openString hb

theorem reads_digits {digits rest : List Char} (hne : digits ≠ [])
    (hd : ∀ d ∈ digits, d.isDigit = true) (hr : Stops Char.isDigit rest) :
    Reads (digits ++ rest) (ofDigits digits rest) := by
  rw [ofDigits, Numeral.value?_eq]
  by_cases hle : Nat.ofDigitChars 10 digits 0 ≤ Numeral.largest
  · rw [if_pos hle]
    refine .lexeme .number digits rest ⟨hne, hd, hle⟩ ?_
    obtain ⟨d, ds, rfl⟩ := List.exists_cons_of_ne_nil hne
    rwa [grows_of_isDigit (hd d List.mem_cons_self)]
  · rw [if_neg hle]
    exact .tooLarge hne hd hr (by omega)

theorem reads_number {c : Char} (hc : c.isDigit = true) (cs : List Char) :
    Reads (c :: cs) (number (c :: cs)) := by
  have hne : (c :: cs).takeWhile Char.isDigit ≠ [] := by simp [hc]
  have hread := reads_digits hne (List.all_eq_true.1 List.all_takeWhile)
    (Trivia.stops_dropWhile Char.isDigit (c :: cs))
  rwa [List.takeWhile_append_dropWhile] at hread

theorem reads_word {c : Char} (hc : isWordStart c = true) (cs : List Char) :
    Reads (c :: cs) (word c cs) := by
  have hr := Trivia.stops_dropWhile isWordPart cs
  have hcs : cs.takeWhile isWordPart ++ cs.dropWhile isWordPart = cs :=
    List.takeWhile_append_dropWhile
  have ht : ∀ d ∈ cs.takeWhile isWordPart, isWordPart d = true :=
    List.all_eq_true.1 List.all_takeWhile
  unfold word
  generalize cs.takeWhile isWordPart = tail at *
  generalize cs.dropWhile isWordPart = rest at *
  rw [← hcs, ← List.cons_append]
  rw [← grows_of_isWordStart hc tail] at hr
  have hk := Kind.isWord_kindOf (c :: tail)
  exact .lexeme _ _ _ ((Kind.form_of_isWord hk).2 ⟨⟨c, tail, rfl, hc, ht⟩, rfl⟩) hr

theorem reads_of {cs : List Char} (h : Trivia.piece? cs = none) : Reads cs (of cs) := by
  unfold of
  split
  · exact .lexeme .endOfInput [] [] rfl (by simp [Stops])
  · exact reads_string _
  · exact .openComment (Trivia.closeFrom_eq_none_iff.1 h)
  · exact .lexeme .equals ['=', '='] _ ⟨_, List.mem_cons_self, rfl⟩ fun d _ => rfl
  · exact .lexeme .notEquals ['!', '='] _ ⟨_, List.mem_cons_self, rfl⟩ fun d _ => rfl
  · rename_i c cs hq hcomment heq hne
    unfold single
    split
    · rename_i kind hk
      have hform := symbolKind?_eq_some_iff.1 hk
      have hword : isWordPart c = false := by
        rw [Bool.eq_false_iff]
        intro hw
        rw [symbolKind?_of_isWordPart hw] at hk
        cases hk
      rw [← valueOf_symbol hform]
      refine .lexeme kind [c] cs (Kind.form_symbol hform) fun d hd => ?_
      obtain ⟨ds, rfl⟩ : ∃ ds, cs = d :: ds := by
        cases cs <;> simp_all
      refine grows_symbol hword ?_ ?_
      · rintro (rfl | rfl) rfl
        · exact heq ds rfl rfl
        · exact hne ds rfl rfl
      · rintro rfl
        refine ⟨?_, ?_⟩ <;> rintro rfl
        · simp [Trivia.piece?] at h
        · exact hcomment ds rfl rfl
    · split
      · exact reads_number ‹_› cs
      · split
        · exact reads_word ‹_› cs
        · refine .unexpected ?_ ?_
          · rw [Bool.eq_false_iff, Ne, begins_iff]
            simp_all
          · exact Trivia.isSpacing_of_piece?_eq_none h

theorem reads_iff {cs : List Char} {r : Reading} :
    Reads cs r ↔ Trivia.piece? cs = none ∧ of cs = r :=
  ⟨fun h => ⟨piece?_of_reads h, of_of_reads h⟩, fun ⟨h, hr⟩ => hr ▸ reads_of h⟩

theorem append_of_reads {cs : List Char} {r : Reading} (h : Reads cs r) :
    cs = r.text ++ r.rest := by
  rw [← of_of_reads h, text_append_rest]

theorem text_ne_nil_of_trouble {cause : Cause} {cs text rest : List Char}
    (h : Reads cs ⟨.trouble cause, text, rest⟩) : text ≠ [] := by
  cases h with
  | openString | openComment | unexpected => exact List.cons_ne_nil _ _
  | tooLarge hne => exact hne

/-- What gives trouble begins with a character that is no spacing. -/
theorem cons_of_trouble {cause : Cause} {cs text rest : List Char}
    (h : Reads cs ⟨.trouble cause, text, rest⟩) :
    ∃ c ds, cs = c :: ds ∧ Trivia.isSpacing c = false := by
  have hn := piece?_of_reads h
  have happend := append_of_reads h
  obtain ⟨c, body, rfl⟩ := List.exists_cons_of_ne_nil (text_ne_nil_of_trouble h)
  rw [happend] at hn
  exact ⟨c, body ++ rest, happend, Trivia.isSpacing_of_piece?_eq_none hn⟩

end Reading

end ScriptScan
