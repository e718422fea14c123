import ScriptScan.Run
import ScriptScan.Proofs.Spell

/-!
# What a scan answers

`Step.ofReading` tells the step that a scan takes over what is read between two places. From a
cursor between two characters a scan takes that step over the lexeme behind the longest gap
(`Cursor.scan_behind`): each slice that it cuts begins and ends between characters.
-/

namespace ScriptScan

open Trivia (Gap Stops piece?)
open Reading (Reads)

/-- The cursor behind what is read behind `front`, but behind the first byte alone of an unexpected
character. -/
def Reading.stop (r : Reading) (front : List Char) : Cursor :=
  match r.finding with
  | .trouble (.unexpected _) => (Cursor.behind front (r.text ++ r.rest)).advance 1
  | _ => Cursor.behind (front ++ r.text) r.rest

/-- The step from one cursor to another over what was read between them. -/
def Step.ofReading (s : Settings) (r : Reading) (start stop : Cursor) : Step :=
  match r.finding with
  | .lexeme kind value => found (s.token kind value (String.ofList r.text) start stop) stop
  | .trouble cause =>
    match cause, s.lenient with
    | .openString, true =>
      let body := String.ofList r.text.tail
      .after (.stringCut start.line)
        (found (s.token .string (some (.string body)) (String.ofList r.text) start stop) stop)
    | .openComment, true =>
      .after (.commentCut start.line) (found (s.token .endOfInput none "" stop stop) stop)
    | _, _ => failed (s.fault cause start) start.offset stop

namespace Cursor

variable (front : List Char) (s : Settings)

/-! ## Slices -/

theorem cutting_behind (text rest : List Char) (next : String → Step) :
    Step.cutting (behind (front ++ text) rest) (Text.width front) (Text.width (front ++ text))
      next = next (String.ofList text) := by
  rw [Step.cutting, behind, Text.cut?_of_append String.toList_ofList]

theorem token_behind (kind : Kind) (value : Option Value) (text rest : List Char) :
    (behind front (text ++ rest)).token s (behind (front ++ text) rest) kind value =
      .found (s.token kind value (String.ofList text) (behind front (text ++ rest))
        (behind (front ++ text) rest)) (behind (front ++ text) rest) :=
  cutting_behind front text rest _

theorem reserved_behind {kind : Kind} (hk : kind.isWord = true) (text rest : List Char) :
    (behind front (text ++ rest)).reserved s (behind (front ++ text) rest) kind =
      .found (s.token kind (kind.valueOf text) (String.ofList text) (behind front (text ++ rest))
        (behind (front ++ text) rest)) (behind (front ++ text) rest) := by
  have htrue : (String.ofList text == "true") = (text == "true".toList) := by
    rw [Bool.eq_iff_iff, beq_iff_eq, beq_iff_eq, ← String.toList_inj, String.toList_ofList]
  unfold reserved
  split <;> rename_i hb
  · subst hb
    exact (cutting_behind front text rest _).trans (by rw [token_behind, htrue]; rfl)
  · rw [token_behind]
    cases kind <;> first | rfl | exact absurd rfl hb | cases hk

theorem number_behind (digits rest : List Char) :
    (behind front (digits ++ rest)).number s (behind (front ++ digits) rest) =
      .ofReading s (Reading.ofDigits digits rest) (behind front (digits ++ rest))
        (behind (front ++ digits) rest) := by
  refine (cutting_behind front digits rest _).trans ?_
  rw [String.toList_ofList, Step.ofReading, Reading.ofDigits]
  rcases Numeral.value? digits with _ | n
  · rfl
  · exact token_behind front s _ _ digits rest

/-- What stands between the quotes can be cut out. -/
theorem cutting_body (body close rest : List Char) (next : String → Step) :
    Step.cutting (behind (front ++ '"' :: (body ++ close)) rest) (Text.width front + 1)
      (Text.width front + 1 + Text.width body) next = next (String.ofList body) := by
  have hquote : Text.width (front ++ ['"']) = Text.width front + 1 := by
    rw [Text.width_append]
    rfl
  have hsource : (String.ofList (front ++ '"' :: (body ++ close) ++ rest)).toList =
      front ++ ['"'] ++ body ++ (close ++ rest) := by simp
  rw [Step.cutting, behind, ← hquote, ← Text.width_append, Text.cut?_of_append hsource]

theorem string_behind (body rest : List Char) :
    (behind front ('"' :: (body ++ ['"']) ++ rest)).string s
        (behind (front ++ '"' :: (body ++ ['"'])) rest) true =
      .found (s.token .string (some (.string (String.ofList body)))
        (String.ofList ('"' :: (body ++ ['"']))) (behind front ('"' :: (body ++ ['"']) ++ rest))
        (behind (front ++ '"' :: (body ++ ['"'])) rest))
        (behind (front ++ '"' :: (body ++ ['"'])) rest) := by
  have hstop : (behind (front ++ '"' :: (body ++ ['"'])) rest).offset - 1 =
      Text.width front + 1 + Text.width body := by
    have hsize : '"'.utf8Size = 1 := rfl
    simp only [behind, Text.width_append, Text.width_cons, Text.width_nil, hsize]
    omega
  rw [string, if_pos rfl, hstop]
  exact (cutting_body front body ['"'] rest _).trans (token_behind front s _ _ _ rest)

theorem openString_behind (body : List Char) :
    (behind front ('"' :: body)).string s (behind (front ++ '"' :: body) []) false =
      .ofReading s ⟨.trouble .openString, '"' :: body, []⟩ (behind front ('"' :: body))
        (behind (front ++ '"' :: body) []) := by
  have hsize : (behind (front ++ '"' :: body) []).source.utf8ByteSize =
      Text.width front + 1 + Text.width body := by
    have hquote : '"'.utf8Size = 1 := rfl
    rw [behind, ← Text.width_ofList]
    simp only [Text.width_append, Text.width_cons, Text.width_nil, hquote]
    omega
  have hcut := cutting_body front body [] []
  have htoken := token_behind front s .string (some (.string (String.ofList body))) ('"' :: body) []
  rw [List.append_nil] at hcut htoken
  rw [string, if_neg (by decide), Step.ofReading]
  rcases hl : s.lenient with _ | _
  · rfl
  · rw [if_pos rfl, hsize]
    exact congrArg _ ((hcut _).trans htoken)

theorem unexpected_behind (c : Char) (rest : List Char) (stop : Cursor) :
    (behind front (c :: rest)).unexpected s stop =
      .failed (s.fault (.unexpected c) (behind front (c :: rest))) (Text.width front) stop := by
  rw [unexpected, behind, Text.first?_of_cons String.toList_ofList]

/-! ## How the first byte leads on -/

section Lexeme

variable {s} {start stop : Cursor} {d : Char}

theorem lexeme_of_isDigit (h : d.isDigit = true) :
    start.lexeme s stop d = start.number s (stop.passWhile Char.isDigit) := if_pos h

theorem lexeme_quote :
    start.lexeme s stop '"' = start.string s stop.closeString.1 stop.closeString.2 := rfl

theorem lexeme_of_symbol? {kind : Kind} {stop' : Cursor} (hd : symbolKind? d ≠ none)
    (h : stop.symbol? d = some (kind, stop')) :
    start.lexeme s stop d = start.token s stop' kind none := by
  have hnot : ¬ d.isDigit = true ∧ d ≠ '"' := by
    refine ⟨fun hdigit => hd ?_, ?_⟩
    · exact Reading.symbolKind?_of_isWordPart (by rw [isWordPart_eq, hdigit, Bool.or_true])
    · rintro rfl
      exact hd rfl
  rw [lexeme, if_neg hnot.1, if_neg hnot.2, h]

theorem lexeme_of_isWordStart (h : isWordStart d = true) :
    start.lexeme s stop d = match stop.keyword? (Reserved.candidates d) with
      | some (kind, stop) => start.reserved s stop kind
      | none => start.token s (stop.passWhile isWordPart) .identifier none := by
  have hpart : isWordPart d = true := by rw [isWordPart_eq, h, Bool.true_or]
  have hnot : ¬ d.isDigit = true ∧ d ≠ '"' := by
    refine ⟨fun hdigit => ?_, ?_⟩
    · rw [isWordStart_of_isDigit hdigit] at h
      cases h
    · rintro rfl
      exact absurd h (by decide)
  rw [lexeme, if_neg hnot.1, if_neg hnot.2,
    symbol?_of_none (Reading.symbolKind?_of_isWordPart hpart)]
  rcases stop.keyword? (Reserved.candidates d) with _ | ⟨kind, stop'⟩
  · exact if_pos h
  · rfl

theorem candidates_of_not_isWordStart (h : isWordStart d = false) :
    Reserved.candidates d = [] := by
  unfold Reserved.candidates
  split <;> first | rfl | exact absurd h (by decide)

theorem lexeme_of_not_begins (h : begins d = false) :
    start.lexeme s stop d = start.unexpected s stop := by
  rw [Bool.eq_false_iff, Ne, begins_iff] at h
  simp only [not_or, ne_eq, Classical.not_not] at h
  obtain ⟨hw, hd, hq, hs⟩ := h
  rw [lexeme, if_neg hd, if_neg hq, symbol?_of_none hs,
    candidates_of_not_isWordStart (Bool.eq_false_iff.2 hw), keyword?, if_neg hw]

end Lexeme

theorem scanLexeme_of_some {c : Cursor} {d : Char} (h : c.peek? 0 = some d) :
    c.scanLexeme s = c.lexeme s (c.advance 1) d := by
  rw [scanLexeme, h]

theorem scanLexeme_cons {d : Char} (hd : d.toNat < 128) (hn : d ≠ '\n') (rest : List Char) :
    (behind front (d :: rest)).scanLexeme s =
      (behind front (d :: rest)).lexeme s (behind (front ++ [d]) rest) d := by
  rw [scanLexeme_of_some s (peek?_of_lt front rest hd), advance_one front rest hd hn]

theorem scanLexeme_nil :
    (behind front []).scanLexeme s =
      .found (s.token .endOfInput none "" (behind front []) (behind front []))
        (behind front []) := by
  have htoken := token_behind front s .endOfInput none [] []
  simp only [List.append_nil] at htoken
  rw [scanLexeme, peek?_nil]
  exact htoken

/-! ## Lexemes -/

variable {rest : List Char}

theorem scanLexeme_digits {digits : List Char} (hne : digits ≠ [])
    (hd : ∀ d ∈ digits, d.isDigit = true) (hr : Stops Char.isDigit rest) :
    (behind front (digits ++ rest)).scanLexeme s =
      .ofReading s (Reading.ofDigits digits rest) (behind front (digits ++ rest))
        (behind (front ++ digits) rest) := by
  obtain ⟨d, ds, rfl⟩ := List.exists_cons_of_ne_nil hne
  have hdigit := hd d List.mem_cons_self
  have hds := fun e he => hd e (List.mem_cons_of_mem d he)
  obtain ⟨hlt, hn⟩ := lt_of_isWordPart (d := d) (by rw [isWordPart_eq, hdigit, Bool.or_true])
  have hstop : (behind (front ++ [d]) (ds ++ rest)).passWhile Char.isDigit =
      behind (front ++ d :: ds) rest := by
    rw [passWhile_behind (fun e he => isDigit_of_le he) (by decide),
      List.takeWhile_append_of_pos hds, List.dropWhile_append_of_pos hds, hr.takeWhile,
      hr.dropWhile, List.append_nil, List.append_assoc]
    rfl
  rw [← number_behind, List.cons_append, scanLexeme_cons front s hlt hn, lexeme_of_isDigit hdigit,
    hstop]

theorem scanLexeme_word {c : Char} {tail : List Char} (hc : isWordStart c = true)
    (ht : ∀ d ∈ tail, isWordPart d = true) (hr : Stops isWordPart rest) :
    (behind front (c :: tail ++ rest)).scanLexeme s =
      .found (s.token (Reserved.kindOf (c :: tail))
        ((Reserved.kindOf (c :: tail)).valueOf (c :: tail)) (String.ofList (c :: tail))
        (behind front (c :: tail ++ rest)) (behind (front ++ c :: tail) rest))
        (behind (front ++ c :: tail) rest) := by
  have hword := Kind.isWord_kindOf (c :: tail)
  have htake : (tail ++ rest).takeWhile isWordPart = tail := by
    rw [List.takeWhile_append_of_pos ht, hr.takeWhile, List.append_nil]
  have hdrop : (tail ++ rest).dropWhile isWordPart = rest := by
    rw [List.dropWhile_append_of_pos ht, hr.dropWhile]
  obtain ⟨hlt, hn⟩ := lt_of_isWordPart (d := c) (by rw [isWordPart_eq, hc, Bool.true_or])
  have hkeyword := keyword?_behind (front ++ [c]) (tail ++ rest)
    fun p hp => Reserved.isWordPart_of_mem_candidates hp (c := c)
  rw [htake, hdrop, List.append_assoc] at hkeyword
  have hkind := Reserved.kindOf_cons c tail
  refine (scanLexeme_cons front s hlt hn (tail ++ rest)).trans ?_
  rw [lexeme_of_isWordStart hc, hkeyword]
  generalize (Reserved.candidates c).find? (fun p => p.1.toList == tail) = found at hkind
  rcases found with _ | p
  · rw [hkind]
    refine Eq.trans ?_ (token_behind front s .identifier none (c :: tail) rest)
    show token s _ (passWhile isWordPart _) .identifier none = _
    rw [passWhile_behind (fun e he => isWordPart_of_le he) (by decide), htake, hdrop,
      List.append_assoc]
    rfl
  · rw [hkind] at hword ⊢
    exact reserved_behind front s hword (c :: tail) rest

theorem scanLexeme_symbol {kind : Kind} {text : List Char}
    (h : ∃ w ∈ kind.spellings, text = w.toList) (hr : Stops (Reading.grows text) rest) :
    (behind front (text ++ rest)).scanLexeme s =
      .found (s.token kind none (String.ofList text) (behind front (text ++ rest))
        (behind (front ++ text) rest)) (behind (front ++ text) rest) := by
  rw [← token_behind]
  rcases symbol_cases h with ⟨c, rfl, hc⟩ | ⟨rfl, rfl⟩ | ⟨rfl, rfl⟩
  · have hne : symbolKind? c ≠ none := by simp [hc]
    have hlt : c.toNat < 128 := Nat.lt_of_not_le fun hle => hne (symbolKind?_of_le hle)
    have hn : c ≠ '\n' := by
      rintro rfl
      exact hne rfl
    rw [List.singleton_append, scanLexeme_cons front s hlt hn,
      lexeme_of_symbol? hne (symbol?_of_some _ hc hr)]
  · have hlong := symbolWithEquals_of_equals (front ++ ['=']) rest .assignment .equals
    rw [List.append_assoc] at hlong
    exact (scanLexeme_cons front s (by decide) (by decide) _).trans
      (lexeme_of_symbol? (by decide) (congrArg some hlong))
  · have hlong := symbolWithEquals_of_equals (front ++ ['!']) rest .not .notEquals
    rw [List.append_assoc] at hlong
    exact (scanLexeme_cons front s (by decide) (by decide) _).trans
      (lexeme_of_symbol? (by decide) (congrArg some hlong))

theorem scanLexeme_string {body : List Char} (hb : '"' ∉ body) :
    (behind front ('"' :: (body ++ ['"']) ++ rest)).scanLexeme s =
      .found (s.token .string (some (.string (String.ofList body)))
        (String.ofList ('"' :: (body ++ ['"']))) (behind front ('"' :: (body ++ ['"']) ++ rest))
        (behind (front ++ '"' :: (body ++ ['"'])) rest))
        (behind (front ++ '"' :: (body ++ ['"'])) rest) := by
  have hclose : (behind (front ++ ['"']) (body ++ ['"'] ++ rest)).closeString =
      (behind (front ++ '"' :: (body ++ ['"'])) rest, true) := by
    rw [List.append_assoc, closeString_append _ _ hb, List.singleton_append, closeString_quote]
    simp
  rw [← string_behind, List.cons_append, scanLexeme_cons front s (by decide) (by decide),
    lexeme_quote, hclose]

theorem scanLexeme_openString {body : List Char} (hb : '"' ∉ body) :
    (behind front ('"' :: body)).scanLexeme s =
      .ofReading s ⟨.trouble .openString, '"' :: body, []⟩ (behind front ('"' :: body))
        (behind (front ++ '"' :: body) []) := by
  have hclose := closeString_append (front ++ ['"']) [] hb
  rw [closeString_nil, List.append_nil, List.append_assoc, List.singleton_append] at hclose
  rw [← openString_behind, scanLexeme_cons front s (by decide) (by decide), lexeme_quote, hclose]

theorem begins_of_le {e : Char} (he : 128 ≤ e.toNat) : begins e = false := by
  rw [Bool.eq_false_iff, Ne, begins_iff, isWordStart_of_le he, isDigit_of_le he,
    symbolKind?_of_le he]
  rintro (h | h | rfl | h)
  · cases h
  · cases h
  · exact absurd he (by decide)
  · exact h rfl

theorem scanLexeme_unexpected {c : Char} (hc : begins c = false) :
    (behind front (c :: rest)).scanLexeme s =
      .failed (s.fault (.unexpected c) (behind front (c :: rest))) (Text.width front)
        ((behind front (c :: rest)).advance 1) := by
  obtain ⟨d, hd, hbegins⟩ : ∃ d, (behind front (c :: rest)).peek? 0 = some d ∧
      begins d = false := by
    by_cases hlt : c.toNat < 128
    · exact ⟨c, peek?_of_lt front rest hlt, hc⟩
    · obtain ⟨d, hd, hle⟩ := peek?_of_le front rest (Nat.le_of_not_lt hlt) c.utf8Size_pos
      exact ⟨d, hd, begins_of_le hle⟩
  rw [scanLexeme_of_some s hd, lexeme_of_not_begins hbegins, unexpected_behind]

/-- Any text without trivia in front is scanned as it is read, but for an open comment, which is
trivia to a scan. -/
theorem scanLexeme_behind {cs : List Char} {r : Reading} (h : Reads cs r)
    (ho : r.finding ≠ .trouble .openComment) :
    (behind front cs).scanLexeme s = .ofReading s r (behind front cs) (r.stop front) := by
  cases h with
  | lexeme kind text rest h hr =>
    cases kind
    case number =>
      obtain ⟨hne, hd, hle⟩ := h
      have hdigits := hr
      obtain ⟨d, ds, rfl⟩ := List.exists_cons_of_ne_nil hne
      rw [Reading.grows_of_isDigit (hd d List.mem_cons_self)] at hdigits
      rw [scanLexeme_digits front s hne hd hdigits, Reading.ofDigits, Numeral.value?_eq,
        if_pos hle]
      rfl
    case string =>
      obtain ⟨body, rfl, hb⟩ := h
      rw [scanLexeme_string front s hb]
      simp [Step.ofReading, Reading.stop, Kind.valueOf]
    case boolean | keyword | typeName | identifier =>
      obtain ⟨⟨c, tail, rfl, hc, ht⟩, hk⟩ := h
      rw [Reading.grows_of_isWordStart hc] at hr
      rw [scanLexeme_word front s hc ht hr, hk]
      rfl
    case endOfInput =>
      cases h
      rw [Reading.eq_nil_of_grows_nil hr, List.append_nil, scanLexeme_nil]
      simp [Step.ofReading, Reading.stop, Kind.valueOf]
    all_goals
      rw [Reading.valueOf_symbol h, scanLexeme_symbol front s h hr]
      rfl
  | openString hb => exact scanLexeme_openString front s hb
  | openComment _ => exact absurd rfl ho
  | tooLarge hne hd hr hl =>
    rw [scanLexeme_digits front s hne hd hr, Reading.ofDigits, Numeral.value?_eq,
      if_neg (by omega)]
    rfl
  | unexpected hc _ =>
    rw [scanLexeme_unexpected front s hc, Step.ofReading]
    rfl

/-! ## Scans -/

theorem scan_behind {gap : List Char} {r : Reading} (hg : Gap gap rest) (hr : Reads rest r) :
    (behind front (gap ++ rest)).scan s =
      .ofReading s r (behind (front ++ gap) rest) (r.stop (front ++ gap)) := by
  have hn := Reading.piece?_of_reads hr
  by_cases ho : ['/', '*'] <+: rest
  · obtain ⟨body, rfl⟩ := ho
    obtain rfl : _ = r := Reading.of_of_reads hr
    have hbody : ¬ ['*', '/'] <:+: body := Trivia.closeFrom_eq_none_iff.1 hn
    have hskip := (skipTrivia_gap front hg).trans (skipTrivia_open (front ++ gap) hbody)
    rw [scan, hskip, Step.ofReading]
    simp only [scanLexeme_nil]
    cases s.lenient <;> rfl
  · have hfinding : r.finding ≠ .trouble .openComment := by
      cases hr with
      | openComment => exact absurd ⟨_, rfl⟩ ho
      | _ => simp
    rw [scan, skipTrivia_gap front hg, skipTrivia_stop _ hn ho]
    exact scanLexeme_behind _ s hr hfinding

/-- Inside a character a scan breaks off behind the next byte: none of the bytes there is taken for
anything known, and the source cannot be cut in front of them. -/
theorem scan_inside {source : String} {front rest : List Char} {c : Char}
    (h : source.toList = front ++ c :: rest) {k : Nat} (hk : 0 < k) (hlt : k < c.utf8Size)
    (line : UInt32) :
    (Cursor.mk source (Text.width front + k) line).scan s =
      ⟨.insideCharacter, ⟨source, Text.width front + k + 1, line⟩, []⟩ := by
  have hle : 128 ≤ c.toNat := Nat.le_of_not_lt fun hc => by
    rw [Text.utf8Size_of_lt hc] at hlt
    omega
  obtain ⟨e, he, hle'⟩ := Text.byte?_of_le h hle hlt
  have hpeek : (Cursor.mk source (Text.width front + k) line).peek? 0 = some e := he
  have hskip := skipTrivia_of_not hpeek fun d hd => Option.some.inj hd ▸ not_trivia_of_le hle'
  rw [scan, hskip]
  refine (scanLexeme_of_some s hpeek).trans ?_
  rw [lexeme_of_not_begins (begins_of_le hle'), unexpected, Text.first?_inside h hk hlt]
  rfl

end Cursor

/-! ## Faults -/

/-- A fault of the step tells the place of some cursor. Under lenient settings it is no open literal
or comment. -/
def Step.Fails (s : Settings) (step : Step) : Prop :=
  ∀ f, step.outcome = .fault f → ∃ cause c, f = s.fault cause c ∧
    (s.lenient = true → cause ≠ .openString ∧ cause ≠ .openComment)

theorem Step.fails_cutting {s : Settings} {cursor : Cursor} {i j : Nat} {next : String → Step}
    (h : ∀ text, (next text).Fails s) : (cutting cursor i j next).Fails s := by
  unfold cutting
  split
  · exact h _
  · rintro f ⟨⟩

theorem Step.fails_failed {s : Settings} {cause : Cause}
    (h : s.lenient = true → cause ≠ .openString ∧ cause ≠ .openComment) (c cursor : Cursor) :
    (failed (s.fault cause c) c.offset cursor).Fails s := by
  rintro f ⟨⟩
  exact ⟨cause, c, rfl, h⟩

namespace Cursor

variable (s : Settings) (start stop : Cursor)

theorem fails_token (kind : Kind) (value : Option Value) :
    (start.token s stop kind value).Fails s :=
  Step.fails_cutting fun _ f h => by cases h

theorem fails_reserved (kind : Kind) : (start.reserved s stop kind).Fails s := by
  unfold reserved
  split
  · exact Step.fails_cutting fun _ => fails_token s start stop _ _
  · exact fails_token s start stop _ _

theorem fails_number : (start.number s stop).Fails s := by
  refine Step.fails_cutting fun digits => ?_
  split
  · exact fails_token s start stop _ _
  · exact Step.fails_failed (by simp) start stop

theorem fails_string (closed : Bool) : (start.string s stop closed).Fails s := by
  cases closed with
  | true => exact Step.fails_cutting fun _ => fails_token s start stop _ _
  | false =>
    rw [string, if_neg (by decide)]
    split
    · exact Step.fails_cutting fun _ => fails_token s start stop _ _
    · exact Step.fails_failed (by simp [*]) start stop

theorem fails_unexpected : (start.unexpected s stop).Fails s := by
  unfold unexpected
  split
  · exact Step.fails_failed (by simp) start stop
  · rintro f ⟨⟩

theorem fails_lexeme (d : Char) : (start.lexeme s stop d).Fails s := by
  unfold lexeme
  split
  · exact fails_number s start _
  · split
    · exact fails_string s start _ _
    · split
      · exact fails_token s start _ _ _
      · split
        · exact fails_reserved s start _ _
        · split
          · exact fails_token s start _ _ _
          · exact fails_unexpected s start stop

theorem fails_scanLexeme : (start.scanLexeme s).Fails s := by
  unfold scanLexeme
  split
  · exact fails_token s start start _ _
  · exact fails_lexeme s start _ _

theorem fails_scan (c : Cursor) (s : Settings) : (c.scan s).Fails s := by
  unfold scan
  split
  · exact fails_scanLexeme s _
  · split
    · exact fails_scanLexeme s _
    · exact Step.fails_failed (by simp [*]) _ _

end Cursor

end ScriptScan
