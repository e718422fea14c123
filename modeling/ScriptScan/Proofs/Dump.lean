import ScriptScan.Proofs.Numbers
import ScriptScan.Proofs.Summary
import ScriptScan.Proofs.Words

/-!
# Summaries tell tokens apart

A quoted text can be read back (`Text.quote_inj`), and the fields of a summary can be told apart
whatever stands in them (`Token.fields_of_summary`). What a summary leaves out of a token that was
found follows from what it shows: the digits of a number from their value and their width, the
quotes of a string literal from its width, the last line from the lexeme. So tokens with one summary
differ in the name of their file at most (`Session.summary_tells`).
-/

namespace ScriptScan

open Trivia (Gap)
open Reading (Reads)

/-- Two texts fall apart alike at the first `x`. -/
theorem append_cons_inj {x : Char} {as bs cs ds : List Char} (ha : x ∉ as) (hb : x ∉ bs)
    (h : as ++ x :: cs = bs ++ x :: ds) : as = bs ∧ cs = ds := by
  have hlen := congrArg (List.idxOf x) h
  rw [List.idxOf_append, if_neg ha, List.idxOf_cons_self, List.idxOf_append, if_neg hb,
    List.idxOf_cons_self, Nat.zero_add, Nat.zero_add] at hlen
  obtain ⟨has, hcs⟩ := List.append_inj h hlen
  exact ⟨has, List.tail_eq_of_cons_eq hcs⟩

theorem digitChar_inj : ∀ n < 16, ∀ m < 16, n.digitChar = m.digitChar → n = m := by decide

theorem toDigits_inj {b n m : Nat} (hb : 1 < b) (hb' : b ≤ 16)
    (h : Nat.toDigits b n = Nat.toDigits b m) : n = m := by
  have hdigit (i j : Nat) (hi : i < b) (hj : j < b) : i.digitChar = j.digitChar → i = j :=
    digitChar_inj i (by omega) j (by omega)
  rw [Nat.toDigits_eq_if hb, @Nat.toDigits_eq_if b m hb] at h
  split at h <;> split at h
  · exact hdigit n m ‹_› ‹_› (List.singleton_inj.1 h)
  · exact absurd (congrArg List.length h) (by simp [Nat.toDigits_ne_nil])
  · exact absurd (congrArg List.length h) (by simp [Nat.toDigits_ne_nil])
  · obtain ⟨hquot, hrem⟩ := List.append_inj' h rfl
    have ih := toDigits_inj hb hb' hquot
    have hmod := hdigit _ _ (Nat.mod_lt n (by omega)) (Nat.mod_lt m (by omega))
      (List.singleton_inj.1 hrem)
    rw [← Nat.div_add_mod n b, ← Nat.div_add_mod m b, ih, hmod]
termination_by n
decreasing_by exact Nat.div_lt_self (by omega) hb

theorem toString_inj {n m : Nat} (h : (toString n).toList = (toString m).toList) : n = m := by
  rw [Nat.toString_eq_ofList_toDigits, Nat.toString_eq_ofList_toDigits, String.toList_ofList,
    String.toList_ofList] at h
  exact toDigits_inj (by decide) (by decide) h

namespace Text

theorem escapeLetter?_inj {c d letter : Char} (hc : escapeLetter? c = some letter)
    (hd : escapeLetter? d = some letter) : c = d := by
  unfold escapeLetter? at hc hd
  split at hc <;> cases hc <;> split at hd <;> first | rfl | cases hd

theorem escapeLetter?_ne_u (c : Char) : escapeLetter? c ≠ some 'u' := by
  unfold escapeLetter?
  split <;> decide

/-- How a character is quoted: by a letter or its code point, behind a backslash, or as it is. -/
inductive QuotedAs (c : Char) : List Char → Prop
  | letter {letter : Char} (h : escapeLetter? c = some letter) : QuotedAs c ['\\', letter]
  | code : QuotedAs c ('\\' :: 'u' :: '\x7b' :: (Nat.toDigits 16 c.toNat ++ ['\x7d']))
  | plain (h : c ≠ '\\') : QuotedAs c [c]

theorem quotedAs_quoteChar (c : Char) : QuotedAs c (quoteChar c) := by
  unfold quoteChar
  split
  · exact .letter ‹_›
  · rename_i h
    split
    · exact .code
    · refine .plain ?_
      rintro rfl
      cases h

/-- Behind a quoted character it is clear where it ends. -/
theorem QuotedAs.append_inj {c d : Char} {as bs cs ds : List Char} (hc : QuotedAs c as)
    (hd : QuotedAs d bs) (h : as ++ cs = bs ++ ds) : c = d ∧ cs = ds := by
  have hbrace (n : Nat) : '\x7d' ∉ Nat.toDigits 16 n :=
    notMem_toDigits (fun m => by simp) (by decide) n
  cases hc with
  | letter hc =>
    cases hd with
    | letter hd =>
      simp only [List.cons_append, List.nil_append, List.cons.injEq, true_and] at h
      obtain ⟨rfl, hrest⟩ := h
      exact ⟨escapeLetter?_inj hc hd, hrest⟩
    | code =>
      simp only [List.cons_append, List.nil_append, List.cons.injEq, true_and] at h
      exact absurd (h.1 ▸ hc) (escapeLetter?_ne_u c)
    | plain hd => exact absurd (List.head_eq_of_cons_eq h).symm hd
  | code =>
    cases hd with
    | letter hd =>
      simp only [List.cons_append, List.nil_append, List.cons.injEq, true_and] at h
      exact absurd (h.1 ▸ hd) (escapeLetter?_ne_u d)
    | code =>
      simp only [List.cons_append, List.append_assoc, List.nil_append, List.cons.injEq,
        true_and] at h
      obtain ⟨hdigits, hrest⟩ := append_cons_inj (hbrace _) (hbrace _) h
      exact ⟨Char.toNat_inj.1 (toDigits_inj (by decide) (by decide) hdigits), hrest⟩
    | plain hd => exact absurd (List.head_eq_of_cons_eq h).symm hd
  | plain hc =>
    cases hd with
    | letter | code => exact absurd (List.head_eq_of_cons_eq h) hc
    | plain => exact List.cons.inj h

theorem quoteChar_ne_nil (c : Char) : quoteChar c ≠ [] := by
  have h := quotedAs_quoteChar c
  generalize quoteChar c = cs at h ⊢
  cases h <;> exact List.cons_ne_nil _ _

theorem flatMap_quoteChar_inj {cs ds : List Char}
    (h : cs.flatMap quoteChar = ds.flatMap quoteChar) : cs = ds := by
  induction cs generalizing ds with
  | nil =>
    cases ds with
    | nil => rfl
    | cons d ds =>
      rw [List.flatMap_nil, List.flatMap_cons] at h
      exact absurd (List.append_eq_nil_iff.1 h.symm).1 (quoteChar_ne_nil d)
  | cons c cs ih =>
    cases ds with
    | nil =>
      rw [List.flatMap_nil, List.flatMap_cons] at h
      exact absurd (List.append_eq_nil_iff.1 h).1 (quoteChar_ne_nil c)
    | cons d ds =>
      rw [List.flatMap_cons, List.flatMap_cons] at h
      obtain ⟨rfl, hrest⟩ := (quotedAs_quoteChar c).append_inj (quotedAs_quoteChar d) h
      rw [ih hrest]

theorem quote_inj {cs ds : List Char} (h : quote cs = quote ds) : cs = ds :=
  flatMap_quoteChar_inj (List.append_cancel_right (List.tail_eq_of_cons_eq h))

end Text

theorem quoted_inj {s t : String} (h : s.quoted = t.quoted) : s = t :=
  String.toList_inj.1 (Text.quote_inj (String.ofList_inj.1 h))

/-! ## Fields of a summary -/

theorem Kind.title_inj {k l : Kind} (h : k.title = l.title) : k = l := by
  have hall : ∀ k ∈ all, ∀ l ∈ all, k.title = l.title → k = l := by decide +kernel
  exact hall k k.mem_all l l.mem_all h

theorem Kind.space_notMem_title (k : Kind) : ' ' ∉ k.title.toList := by
  have hall : ∀ k ∈ all, ' ' ∉ k.title.toList := by decide +kernel
  exact hall k k.mem_all

namespace Token

theorem toList_summary (t : Token) :
    t.summary.toList = (toString t.startLine.toNat).toList ++ ':' ::
      ((toString t.startsAt).toList ++ '.' :: '.' ::
        ((toString t.stopsAt).toList ++ ' ' ::
          (t.kind.title.toList ++ ' ' :: t.content.toList))) := by
  simp [summary, startsAt, stopsAt]

/-- Tokens with one summary show the same in each of its fields. -/
theorem fields_of_summary {t u : Token} (h : t.summary = u.summary) :
    t.startLine = u.startLine ∧ t.startsAt = u.startsAt ∧ t.stopsAt = u.stopsAt ∧
      t.kind = u.kind ∧ t.content = u.content := by
  have hnumber {c : Char} (hc : c.isDigit = false) (n : Nat) : c ∉ (toString n).toList :=
    notMem_number hc n
  have hlist := congrArg String.toList h
  rw [toList_summary, toList_summary] at hlist
  obtain ⟨hline, hlist⟩ := append_cons_inj (hnumber rfl _) (hnumber rfl _) hlist
  obtain ⟨hstart, hlist⟩ := append_cons_inj (hnumber rfl _) (hnumber rfl _) hlist
  obtain ⟨hstop, hlist⟩ := append_cons_inj (hnumber rfl _) (hnumber rfl _)
    (List.tail_eq_of_cons_eq hlist)
  obtain ⟨hkind, hcontent⟩ := append_cons_inj (Kind.space_notMem_title _)
    (Kind.space_notMem_title _) hlist
  exact ⟨UInt32.toNat_inj.1 (toString_inj hline), toString_inj hstart, toString_inj hstop,
    Kind.title_inj (String.toList_inj.1 hkind), String.toList_inj.1 hcontent⟩

end Token

/-! ## What is found -/

/-- The texts and values of tokens of a kind: those of its lexemes, and of string literals that the
end of the input cuts off. -/
inductive Kind.Found : Kind → List Char → Option Value → Prop
  | lexeme {kind : Kind} {text : List Char} (h : kind.Form text) :
    Found kind text (kind.valueOf text)
  | cut {body : List Char} (h : '"' ∉ body) :
    Found .string ('"' :: body) (some (.string (String.ofList body)))

/-- What every token that was found tells of its lexeme besides its span. -/
structure Token.Sound (t : Token) : Prop where
  found : t.kind.Found t.lexeme.toList t.value
  endLine : t.endLine = t.startLine + UInt32.ofNat (t.lexeme.toList.count '\n')

theorem Token.sound_tokenAt (s : Settings) (front : List Char) {kind : Kind} {text : List Char}
    {value : Option Value} (h : kind.Found text value) :
    { s.tokenAt kind front text with value }.Sound := by
  refine ⟨?_, ?_⟩ <;> simp only [Settings.tokenAt, String.toList_ofList]
  · exact h
  · rw [lineAt, List.count_append, ← Nat.add_assoc, UInt32.ofNat_add, ← lineAt]

theorem Cursor.sound_of_scan {front ahead : List Char} {s : Settings} {t : Token}
    (h : ((behind front ahead).scan s).outcome = .token t) : t.Sound := by
  obtain ⟨gap, cs, rfl, hg, hn⟩ := Trivia.exists_gap ahead
  have hr := Reading.reads_of hn
  generalize Reading.of cs = r at hr
  cases hr with
  | lexeme kind text rest hform hstops =>
    rw [scan_lexeme front s hg hform hstops] at h
    cases h
    exact Token.sound_tokenAt s (front ++ gap) (.lexeme hform)
  | openString hb =>
    rcases hl : s.lenient with _ | _
    · rw [scan_trouble front s hg (.openString hb) (by simp [hl])] at h
      cases h
    · rw [scan_openString front s hg hb hl] at h
      cases h
      exact Token.sound_tokenAt s (front ++ gap) (.cut hb)
  | @openComment body hb =>
    rcases hl : s.lenient with _ | _
    · rw [scan_trouble front s hg (.openComment hb) (by simp [hl])] at h
      cases h
    · rw [scan_openComment front s hg hb hl] at h
      cases h
      have hform : Kind.Form .endOfInput [] := rfl
      exact Token.sound_tokenAt s (front ++ gap ++ '/' :: '*' :: body) (.lexeme hform)
  | tooLarge hne hd hstops hlarge =>
    rw [scan_trouble front s hg (.tooLarge hne hd hstops hlarge) (by simp)] at h
    cases h
  | unexpected hb hc =>
    rw [scan_trouble front s hg (.unexpected hb hc) (by simp)] at h
    cases h

theorem Session.Reachable.sound {s : Session} (h : s.Reachable) {t : Token}
    (ht : s.scan.1 = .token t) : t.Sound := by
  obtain ⟨front, ahead, pending, hst⟩ := h.stands
  cases pending with
  | zero =>
    rw [Session.scan, hst.cursor_eq] at ht
    exact Cursor.sound_of_scan ht
  | succ n =>
    rw [hst.scan_inside] at ht
    cases ht

/-! ## What a summary leaves out -/

/-- The digits of a number are told by its value and their width. -/
theorem digits_inj {as bs : List Char} (ha : Kind.Form .number as) (hb : Kind.Form .number bs)
    (hvalue : Nat.ofDigitChars 10 as 0 = Nat.ofDigitChars 10 bs 0)
    (hwidth : Text.width as = Text.width bs) : as = bs := by
  obtain ⟨k, n, rfl⟩ := Numeral.exists_padded ha.1 ha.2.1
  obtain ⟨l, m, rfl⟩ := Numeral.exists_padded hb.1 hb.2.1
  rw [Numeral.ofDigitChars_padded, Numeral.ofDigitChars_padded] at hvalue
  subst hvalue
  rw [Numeral.width_padded, Numeral.width_padded] at hwidth
  rw [Nat.add_right_cancel hwidth]

namespace Kind

theorem text_number {n : Nat} (h : n ≤ Numeral.largest) :
    (Value.number (Int64.ofNat n)).text = toString n := by
  rw [Value.text, Numeral.toInt_ofNat h]
  rfl

/-- A string literal was found with its closing quote or, at the end of the input, without it. -/
theorem Found.string {text : List Char} {value : Option Value} (h : Found .string text value) :
    ∃ body closing, text = '"' :: body ++ closing ∧ (closing = ['"'] ∨ closing = []) ∧
      value = some (.string (String.ofList body)) := by
  cases h with
  | lexeme h =>
    obtain ⟨body, rfl, -⟩ := h
    exact ⟨body, ['"'], rfl, Or.inl rfl, by simp [valueOf]⟩
  | @cut body => exact ⟨body, [], by simp, Or.inr rfl, rfl⟩

theorem Found.lexeme_of_ne {kind : Kind} {text : List Char} {value : Option Value}
    (h : kind.Found text value) (hk : kind ≠ .string) :
    kind.Form text ∧ value = kind.valueOf text := by
  cases h with
  | lexeme h => exact ⟨h, rfl⟩
  | cut => exact absurd rfl hk

/-- What was found is told by its kind, its width, and the value as it is shown or, where there is
none, the text. -/
theorem Found.eq {kind : Kind} {text text' : List Char} {value value' : Option Value}
    (h : kind.Found text value) (h' : kind.Found text' value')
    (hwidth : Text.width text = Text.width text')
    (hvalue : value.map Value.text = value'.map Value.text)
    (hnone : value = none → text = text') : text = text' ∧ value = value' := by
  by_cases hk : kind = .string
  · subst hk
    obtain ⟨body, closing, rfl, hc, rfl⟩ := h.string
    obtain ⟨body', closing', rfl, hc', rfl⟩ := h'.string
    obtain rfl : body = body' := String.ofList_inj.1 (quoted_inj (Option.some.inj hvalue))
    have hquote : '"'.utf8Size = 1 := rfl
    rcases hc with rfl | rfl <;> rcases hc' with rfl | rfl
    · exact ⟨rfl, rfl⟩
    · simp [Text.width_append, hquote] at hwidth
    · simp [Text.width_append, hquote] at hwidth
    · exact ⟨rfl, rfl⟩
  · obtain ⟨hform, rfl⟩ := h.lexeme_of_ne hk
    obtain ⟨hform', rfl⟩ := h'.lexeme_of_ne hk
    suffices text = text' from ⟨this, congrArg _ this⟩
    cases kind
    case number =>
      have hnumber := Option.some.inj hvalue
      rw [text_number hform.2.2, text_number hform'.2.2] at hnumber
      exact digits_inj hform hform' (toString_inj (congrArg String.toList hnumber)) hwidth
    case boolean =>
      rcases Reserved.kindOf_eq_boolean_iff.1 hform.2 with rfl | rfl <;>
        rcases Reserved.kindOf_eq_boolean_iff.1 hform'.2 with rfl | rfl
      all_goals first | rfl | exact absurd (Option.some.inj hvalue) (by decide)
    case string => exact absurd rfl hk
    all_goals exact hnone rfl

end Kind

theorem Token.content_inj {t u : Token} (h : t.content = u.content) :
    t.value.map Value.text = u.value.map Value.text ∧ (t.value = none → t.lexeme = u.lexeme) := by
  have hbracket (v : Value) (s : String) : "(" ++ v.text ++ ")" ≠ s.quoted := by
    intro h
    have hlist := congrArg String.toList h
    rw [String.quoted, String.toList_ofList, String.toList_append, String.toList_append] at hlist
    exact absurd (List.head_eq_of_cons_eq hlist) (by decide)
  unfold content at h
  rcases ht : t.value with _ | v <;> rcases hu : u.value with _ | w <;> rw [ht, hu] at h
  · exact ⟨rfl, fun _ => quoted_inj h⟩
  · exact absurd h.symm (hbracket _ _)
  · exact absurd h (hbracket _ _)
  · have hlist := congrArg String.toList h
    simp only [String.toList_append] at hlist
    have htext := List.append_cancel_left (List.append_cancel_right hlist)
    exact ⟨congrArg some (String.toList_inj.1 htext), fun h => absurd h (Option.some_ne_none v)⟩

/-- Tokens that were found and have one summary are equal, up to the names of their files. -/
theorem Token.Sound.eq_of_summary {t u : Token} (ht : t.Sound) (hu : u.Sound)
    (hwidth : t.startsAt + t.lexeme.utf8ByteSize = t.stopsAt)
    (hwidth' : u.startsAt + u.lexeme.utf8ByteSize = u.stopsAt) (h : t.summary = u.summary) :
    t.kind = u.kind ∧ t.lexeme = u.lexeme ∧ t.value = u.value ∧ t.startLine = u.startLine ∧
      t.endLine = u.endLine ∧ t.startsAt = u.startsAt ∧ t.stopsAt = u.stopsAt := by
  obtain ⟨hline, hstart, hstop, hkind, hcontent⟩ := fields_of_summary h
  obtain ⟨hvalue, hnone⟩ := content_inj hcontent
  have hbytes : Text.width t.lexeme.toList = Text.width u.lexeme.toList := by
    rw [Text.width_toList, Text.width_toList]
    omega
  obtain ⟨hlexeme, hvalue⟩ := ht.found.eq (hkind ▸ hu.found) hbytes hvalue
    fun h => congrArg String.toList (hnone h)
  refine ⟨hkind, String.toList_inj.1 hlexeme, hvalue, hline, ?_, hstart, hstop⟩
  rw [ht.endLine, hu.endLine, hline, hlexeme]

namespace Session

/-- Tokens that calls of any two sessions answer agree in all but the names of their files as soon
as their summaries are the same. -/
theorem summary_tells {s r : Session} (hs : s.Reachable) (hr : r.Reachable)
    (hsfit : s.source.utf8ByteSize + 1 < UInt32.size)
    (hrfit : r.source.utf8ByteSize + 1 < UInt32.size) {t u : Token}
    (ht : s.scan.1 = .token t) (hu : r.scan.1 = .token u) (h : t.summary = u.summary) :
    t.kind = u.kind ∧ t.lexeme = u.lexeme ∧ t.value = u.value ∧ t.startLine = u.startLine ∧
      t.endLine = u.endLine ∧ t.startsAt = u.startsAt ∧ t.stopsAt = u.stopsAt := by
  have hst := hs.tracked hsfit
  have hrt := hr.tracked hrfit
  rw [ht] at hst
  rw [hu] at hrt
  exact (hs.sound ht).eq_of_summary (hr.sound hu) hst.spans hrt.spans h

theorem summary_tells_cut :
    let s := start (.named none true) "/*é*/\"☃\n007"
    let r := start (.named (some "b") true) "/*ab*/\"☃\n007"
    s.Reachable ∧ r.Reachable ∧ s.source.utf8ByteSize + 1 < UInt32.size ∧
      r.source.utf8ByteSize + 1 < UInt32.size ∧
      ∃ t u, s.scan.1 = .token t ∧ r.scan.1 = .token u ∧ t ≠ u ∧
        t.summary = "1:6..14 String (\"☃\\n007\")" ∧ u.summary = t.summary ∧
        t.lexeme = u.lexeme ∧ t.endLine = u.endLine := by
  intro s r
  have hs : s.Reachable := .start _ _
  have hr : r.Reachable := .start _ _
  have hsfit : s.source.utf8ByteSize + 1 < UInt32.size := by decide +kernel
  have hrfit : r.source.utf8ByteSize + 1 < UInt32.size := by decide +kernel
  let span (file : String) : Span := ⟨⟨6, file⟩, ⟨14, file⟩⟩
  let t (file : String) : Token := ⟨.string, "\"☃\n007", some (.string "☃\n007"), 1, 2, span file⟩
  have ht : s.scan.1 = .token (t "shell") := by decide +kernel
  have hu : r.scan.1 = .token (t "b") := by decide +kernel
  have hsummary : (t "shell").summary = "1:6..14 String (\"☃\\n007\")" := by decide +kernel
  have heq : (t "b").summary = (t "shell").summary := by decide +kernel
  obtain ⟨-, hlexeme, -, -, hend, -⟩ := summary_tells hs hr hsfit hrfit ht hu heq.symm
  exact ⟨hs, hr, hsfit, hrfit, _, _, ht, hu, by decide, hsummary, heq, hlexeme, hend⟩

end Session

end ScriptScan
