import ScriptScan.Proofs.Partition
import ScriptScan.Proofs.Reach

/-!
# Longest match

`IsLexeme` tells which texts are lexemes at all, of whatever kind. A lexeme that is read where no
trivia begins is the longest with which the text there begins (`longestLexeme_iff`). So the tokens
of a source are the only ones that lose nothing of it and are each the longest where they stand
(`tokenize_eq_ok_iff_longestMatch`).
-/

namespace ScriptScan

open Trivia (Gap Stops)
open Reading (Reads grows)

def symbols : List String :=
  [".", ":", ";", ",", "(", ")", "\x7b", "\x7d", "[", "]", "+", "-", "*", "/", "=", "==", "!", "!="]

/-- The texts of lexemes: digits in a row, words, string literals and symbols. -/
inductive IsLexeme : List Char → Prop
  | digits {text : List Char} (hne : text ≠ []) (hd : ∀ d ∈ text, d.isDigit = true) : IsLexeme text
  | word {text : List Char} (h : IsWord text) : IsLexeme text
  | string {body : List Char} (hb : '"' ∉ body) : IsLexeme ('"' :: (body ++ ['"']))
  | symbol {s : String} (h : s ∈ symbols) : IsLexeme s.toList

/-- Where no trivia begins, the longest of the lexemes with which a text begins. -/
structure LongestLexeme (cs text : List Char) : Prop where
  notBlank : Stops Trivia.isSpacing cs
  notLineComment : ¬ ['/', '/'] <+: cs
  notBlockComment : ¬ ['/', '*'] <+: cs
  lexeme : IsLexeme text
  begins : text <+: cs
  longest : ∀ other, IsLexeme other → other <+: cs → other.length ≤ text.length

/-- The tokens of a text behind `front`: trivia in front of each, and each over the longest lexeme
where it stands; the last one is the end of the input. -/
inductive LongestMatch (s : Settings) : List Char → List Char → List Token → Prop
  | finish {front gap : List Char} (hg : Gap gap []) :
    LongestMatch s front gap [s.tokenAt .endOfInput (front ++ gap) []]
  | lexeme {front gap text rest : List Char} {kind : Kind} {ts : List Token}
    (hg : Gap gap (text ++ rest)) (hform : kind.Form text)
    (hl : LongestLexeme (text ++ rest) text) (h : LongestMatch s (front ++ gap ++ text) rest ts) :
    LongestMatch s front (gap ++ (text ++ rest)) (s.tokenAt kind (front ++ gap) text :: ts)

/-! ## One lexeme -/

theorem symbol_length :
    ∀ s ∈ symbols, s.toList.length = 1 ∨ s.toList = ['=', '='] ∨ s.toList = ['!', '='] := by
  decide

theorem IsLexeme.ne_nil {text : List Char} (h : IsLexeme text) : text ≠ [] := by
  cases h with
  | digits hne => exact hne
  | word h =>
    obtain ⟨c, tail, rfl, -⟩ := h
    exact List.cons_ne_nil c tail
  | string => exact List.cons_ne_nil _ _
  | symbol hs =>
    rintro hnil
    simpa [hnil] using symbol_length _ hs

theorem isLexeme_of_form {kind : Kind} {text : List Char} (h : kind.Form text)
    (hk : kind ≠ .endOfInput) : IsLexeme text := by
  cases kind
  case number => exact .digits h.1 h.2.1
  case string =>
    obtain ⟨body, rfl, hb⟩ := h
    exact .string hb
  case boolean | keyword | typeName | identifier => exact .word h.1
  case endOfInput => exact absurd rfl hk
  all_goals
    obtain ⟨s, hs, rfl⟩ := h
    refine .symbol ?_
    revert s
    decide

/-- A lexeme that begins with a quote ends with the next. -/
theorem IsLexeme.eq_string {cs : List Char} (h : IsLexeme ('"' :: cs)) :
    ∃ body, cs = body ++ ['"'] ∧ '"' ∉ body := by
  generalize htext : '"' :: cs = text at h
  cases h with
  | digits hne hd =>
    subst htext
    exact absurd (hd _ List.mem_cons_self) (by decide)
  | word h =>
    obtain ⟨c, tail, rfl, hc, -⟩ := h
    cases htext
    exact absurd hc (by decide)
  | @string body hb =>
    cases htext
    exact ⟨body, rfl, hb⟩
  | symbol hs =>
    have hquote : ∀ s ∈ symbols, s.toList.head? ≠ some '"' := by decide
    exact absurd (htext ▸ rfl) (hquote _ hs)

/-- What makes a longer lexeme of one is a character that lengthens it. -/
theorem IsLexeme.grows {c d : Char} {cs ds : List Char} (h : IsLexeme (c :: cs))
    (hlong : IsLexeme (c :: cs ++ d :: ds)) : grows (c :: cs) d = true := by
  generalize htext : c :: cs ++ d :: ds = text at hlong
  cases hlong with
  | digits hne hd =>
    subst htext
    rw [Reading.grows_of_isDigit (hd c (by simp))]
    exact hd d (by simp)
  | word hw =>
    obtain ⟨c', tail, rfl, hc, ht⟩ := hw
    cases htext
    rw [Reading.grows_of_isWordStart hc]
    exact ht d (by simp)
  | @string body hb =>
    rw [List.cons_append, List.cons.injEq] at htext
    obtain ⟨rfl, htext⟩ := htext
    obtain ⟨inner, rfl, -⟩ := h.eq_string
    -- the quote that ends the shorter literal would stand within the longer one
    have hbody := congrArg List.dropLast htext
    rw [List.dropLast_concat, List.dropLast_append_of_ne_nil (List.cons_ne_nil d ds)] at hbody
    exact absurd (hbody ▸ by simp) hb
  | symbol hs =>
    have hlen := symbol_length _ hs
    rw [← htext] at hlen
    rcases cs with _ | ⟨e, cs⟩
    · simp only [List.cons_append, List.nil_append, List.length_cons, List.cons.injEq,
        Nat.add_eq_right] at hlen
      rcases hlen with hlen | ⟨rfl, rfl, -⟩ | ⟨rfl, rfl, -⟩
      · cases hlen
      · rfl
      · rfl
    · simp at hlen

/-- But for the slash, a character that lengthens a lexeme makes a longer lexeme of it. -/
theorem isLexeme_append {kind : Kind} {text : List Char} {d : Char} (h : kind.Form text)
    (hk : kind ≠ .endOfInput) (hs : text ≠ ['/']) (hd : grows text d = true) :
    IsLexeme (text ++ [d]) := by
  rw [Reading.grows_iff h hk] at hd
  rcases hd with ⟨hw, hd⟩ | ⟨rfl, hd⟩ | ⟨rfl | rfl, rfl⟩ | ⟨hslash, -⟩
  · obtain ⟨⟨c, tail, rfl, hc, ht⟩, -⟩ := (Kind.form_of_isWord hw).1 h
    exact .word ⟨c, tail ++ [d], rfl, hc,
      List.forall_mem_append.2 ⟨ht, List.forall_mem_singleton.2 hd⟩⟩
  · exact .digits (by simp) (List.forall_mem_append.2 ⟨h.2.1, List.forall_mem_singleton.2 hd⟩)
  · exact @IsLexeme.symbol "==" (by decide)
  · exact @IsLexeme.symbol "!=" (by decide)
  · exact absurd hslash hs

theorem LongestLexeme.stops {kind : Kind} {text rest : List Char} (h : kind.Form text)
    (hk : kind ≠ .endOfInput) (hl : LongestLexeme (text ++ rest) text) :
    Stops (grows text) rest := by
  intro d hd
  obtain ⟨ds, rfl⟩ := List.head?_eq_some_iff.1 hd
  rw [Bool.eq_false_iff]
  intro hgrows
  by_cases hs : text = ['/']
  · subst hs
    simp only [grows, Bool.or_eq_true, beq_iff_eq] at hgrows
    rcases hgrows with rfl | rfl
    · exact hl.notLineComment ⟨ds, rfl⟩
    · exact hl.notBlockComment ⟨ds, rfl⟩
  · have hle := hl.longest _ (isLexeme_append h hk hs hgrows) ⟨ds, by simp⟩
    rw [List.length_append, List.length_singleton] at hle
    omega

theorem longest_of_stops {text rest : List Char} (h : IsLexeme text)
    (hr : Stops (grows text) rest) {other : List Char} (hother : IsLexeme other)
    (hbegins : other <+: text ++ rest) : other.length ≤ text.length := by
  refine Nat.le_of_not_lt fun hlt => ?_
  obtain ⟨more, rfl⟩ := List.prefix_of_prefix_length_le (List.prefix_append text rest) hbegins
    (Nat.le_of_lt hlt)
  obtain ⟨tail, rfl⟩ := (List.prefix_append_right_inj text).1 hbegins
  obtain ⟨c, cs, rfl⟩ := List.exists_cons_of_ne_nil h.ne_nil
  rcases more with _ | ⟨d, ds⟩
  · simp at hlt
  · have hd := hr d rfl
    rw [h.grows hother] at hd
    cases hd

/-- A lexeme where no trivia begins is the longest one there if nothing behind it lengthens it. -/
theorem longestLexeme_iff {kind : Kind} {text rest : List Char} (h : kind.Form text)
    (hk : kind ≠ .endOfInput) :
    LongestLexeme (text ++ rest) text ↔ Stops (grows text) rest := by
  refine ⟨LongestLexeme.stops h hk, fun hr => ?_⟩
  have hlexeme := isLexeme_of_form h hk
  have hn := Reading.piece?_of_reads (.lexeme kind text rest h hr)
  refine ⟨?_, ?_, ?_, hlexeme, List.prefix_append _ _, fun other =>
    longest_of_stops hlexeme hr⟩
  · intro c hc
    obtain ⟨cs, hcs⟩ := List.head?_eq_some_iff.1 hc
    rw [hcs] at hn
    exact Trivia.isSpacing_of_piece?_eq_none hn
  · rintro ⟨ds, hds⟩
    rw [← hds] at hn
    cases hn
  · rintro ⟨ds, hds⟩
    -- `text` is the slash alone, and the star behind it would open a comment
    rcases Reading.begins_of_form h with ⟨hend, -⟩ | ⟨c, cs, rfl, -, hslash⟩
    · exact hk hend
    · obtain rfl : '/' = c := by
        simpa using congrArg List.head? hds
      rw [hslash rfl] at hds hr
      cases hds
      exact absurd (hr '*' rfl) (by decide)

/-! ## All lexemes of a text -/

theorem LongestMatch.run_eq {s : Settings} {front ahead : List Char} {ts : List Token}
    (h : LongestMatch s front ahead ts) :
    ((Cursor.behind front ahead).run s).fault = none ∧
      ((Cursor.behind front ahead).run s).tokens = ts := by
  induction h with
  | @finish front gap hg =>
    rw [Cursor.run_finish front s hg]
    exact ⟨rfl, rfl⟩
  | @lexeme front gap text rest kind ts hg hform hl h ih =>
    have hk : kind ≠ .endOfInput := by
      rintro rfl
      exact hl.lexeme.ne_nil hform
    rw [Cursor.run_lexeme front s hg hform (hl.stops hform hk) hk]
    exact ⟨ih.1, congrArg (_ :: ·) ih.2⟩

theorem longestMatch_run {s : Settings} (hs : s.lenient = false) (front ahead : List Char)
    (h : ((Cursor.behind front ahead).run s).fault = none) :
    LongestMatch s front ahead ((Cursor.behind front ahead).run s).tokens := by
  induction front, ahead using Cursor.reading_induction with
  | lexeme front gap kind text rest hg hform hr hk ih =>
    rw [Cursor.run_lexeme front s hg hform hr hk] at h ⊢
    exact .lexeme hg hform ((longestLexeme_iff hform hk).2 hr) (ih h)
  | finish front gap hg =>
    rw [Cursor.run_finish front s hg]
    exact .finish hg
  | trouble front gap cause cs text rest hg hr =>
    rw [Cursor.run_trouble front s hg hr (by simp [hs])] at h
    cases h

theorem tokenize_eq_ok_iff_longestMatch {source : String} {file : Option String}
    {ts : List Token} :
    tokenize source file = .ok ts ↔ LongestMatch (.named file false) [] source.toList ts := by
  rw [tokenize_eq_ok_iff, Run.of_eq]
  constructor
  · rintro ⟨hf, rfl⟩
    exact longestMatch_run rfl [] source.toList hf
  · exact LongestMatch.run_eq

/-! ## Scans -/

namespace Session

/-- A token that a strict scan finds stands over a lexeme behind the longest gap. -/
theorem Reachable.exists_tokenAt {s : Session} (h : s.Reachable) (hs : s.settings.lenient = false)
    {ahead : List Char} (ha : s.ahead? = some ahead) {t : Token} (ht : s.scan.1 = .token t) :
    ∃ front gap kind text rest, s.source.toList = front ++ gap ++ text ++ rest ∧
      ahead = gap ++ (text ++ rest) ∧ Gap gap (text ++ rest) ∧ Kind.Form kind text ∧
        Stops (grows text) rest ∧ t = s.settings.tokenAt kind (front ++ gap) text := by
  obtain ⟨front, gap, r, hsource, -, rfl, hg, hr, hscan⟩ := h.scan_eq ha
  rw [Step.outcome_ofReading _ _ _ _ hs, ht] at hscan
  generalize hcs : r.text ++ r.rest = cs at hr hg hsource
  cases hr with
  | lexeme kind text rest hform hstops =>
    cases hscan
    exact ⟨front, gap, kind, text, rest, by simp [hsource], rfl, hg, hform, hstops, rfl⟩
  | openString | openComment | tooLarge | unexpected => cases hscan

/-- A token that a strict scan finds is the longest lexeme where it stands, and all that is ahead of
the end of the input is trivia. So the tokens of a source are the only ones which are each the
longest where they stand and leave nothing but trivia between. -/
theorem scan_longest {s : Session} (h : s.Reachable) (hs : s.settings.lenient = false)
    (hfit : s.source.utf8ByteSize + 1 < UInt32.size) {ahead : List Char}
    (ha : s.ahead? = some ahead) :
    (∀ t, s.scan.1 = .token t → t.isEnd = false → ∃ cs,
      Text.drop? s.source.toList t.startsAt = some cs ∧
        Text.slice? s.source.toList t.startsAt t.stopsAt = some t.lexeme.toList ∧
          LongestLexeme cs t.lexeme.toList) ∧
      (∀ t, s.scan.1 = .token t → t.isEnd = true → Gap ahead []) ∧
      ∀ source file ts, tokenize source file = .ok ts ↔
        LongestMatch (.named file false) [] source.toList ts := by
  refine ⟨?_, ?_, fun _ _ _ => tokenize_eq_ok_iff_longestMatch⟩ <;> intro t ht hend <;>
    obtain ⟨front, gap, kind, text, rest, hsource, rfl, hg, hform, hstops, rfl⟩ :=
      h.exists_tokenAt hs ha ht
  · have hk : kind ≠ .endOfInput := ne_of_beq_false hend
    rw [← Text.width_toList, hsource] at hfit
    have hstart := s.settings.offset_positionAt (front ++ gap) (by simp at hfit ⊢; omega)
    refine ⟨text ++ rest, ?_, ?_, ?_⟩
    · rw [Token.startsAt, Settings.tokenAt, hstart, hsource, List.append_assoc _ text,
        Text.drop?_append]
    · rw [hsource]
      exact (exact_tokenAt s.settings hform hfit).slice
    · rw [Settings.tokenAt, String.toList_ofList]
      exact (longestLexeme_iff hform hk).2 hstops
  · obtain rfl : kind = .endOfInput := eq_of_beq hend
    cases hform
    rw [Reading.eq_nil_of_grows_nil hstops] at hg ⊢
    simpa using hg

theorem scan_longest_notEquals :
    let s := (start (.named none false) "é/*☃*/!==/*").scan.2.scan.2
    let t : Token := ⟨.notEquals, "!=", none, 1, 1, ⟨⟨9, "shell"⟩, ⟨11, "shell"⟩⟩⟩
    s.Reachable ∧ s.settings.lenient = false ∧ s.source.utf8ByteSize + 1 < UInt32.size ∧
      s.ahead? = some "/*☃*/!==/*".toList ∧ s.scan.1 = .token t ∧ t.isEnd = false ∧
      ∃ cs, Text.drop? s.source.toList t.startsAt = some cs ∧
        Text.slice? s.source.toList t.startsAt t.stopsAt = some t.lexeme.toList ∧
          LongestLexeme cs t.lexeme.toList := by
  intro s t
  have h : s.Reachable := .scan (.scan (.start _ _))
  have hs : s.settings.lenient = false := by decide +kernel
  have hfit : s.source.utf8ByteSize + 1 < UInt32.size := by decide +kernel
  have ha : s.ahead? = some "/*☃*/!==/*".toList := by decide +kernel
  have ht : s.scan.1 = .token t := by decide +kernel
  exact ⟨h, hs, hfit, ha, ht, rfl, (scan_longest h hs hfit ha).1 t ht rfl⟩

end Session

end ScriptScan
