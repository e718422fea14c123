import ScriptScan.Proofs.Reach

/-!
# Printed tokens

Tokens printed with trivia between them are scanned again as they were, each where it was printed,
exactly if no token goes on into the one right behind it (`tokenize_printed`): a lexeme is read to
where `Reading.grows` stops, and trivia stop every lexeme but a slash in front of a comment.
-/

namespace ScriptScan

namespace Trivia

/-- Pieces of trivia in a row that are complete whatever stands behind them: each line comment has
its line feed. -/
inductive Sealed : List Char → Prop
  | nil : Sealed []
  | blank {c : Char} {gap : List Char} (h : isSpacing c = true) (hg : Sealed gap) :
    Sealed (c :: gap)
  | line {body gap : List Char} (hb : '\n' ∉ body) (hg : Sealed gap) :
    Sealed ('/' :: '/' :: (body ++ '\n' :: gap))
  | block {body gap : List Char} (hb : ¬ ['*', '/'] <:+: body ++ ['*']) (hg : Sealed gap) :
    Sealed ('/' :: '*' :: (body ++ '*' :: '/' :: gap))

theorem Sealed.gap {gap : List Char} (h : Sealed gap) (rest : List Char) : Gap gap rest := by
  induction h with
  | nil => exact .nil
  | blank h _ ih => exact .cons (.blank h) ih
  | line hb _ ih => exact .cons (.line hb (Or.inr rfl)) (.cons (.blank rfl) ih)
  | block hb _ ih =>
    have := Gap.cons (.block hb) ih
    simpa using this

theorem Gap.head {c : Char} {gap rest : List Char} (h : Gap (c :: gap) rest) :
    isSpacing c = true ∨ c = '/' := by
  generalize hcs : c :: gap = cs at h
  cases h with
  | nil => cases hcs
  | cons hp _ =>
    cases hp with
    | blank h =>
      cases hcs
      exact Or.inl h
    | line | block =>
      cases hcs
      exact Or.inr rfl

end Trivia

open Trivia (Gap Sealed Stops isSpacing)
open Reading (grows)

namespace Token

/-- Some scan of a strict session found `t`. -/
def Scanned (t : Token) : Prop :=
  ∃ s : Session, s.Reachable ∧ s.settings.lenient = false ∧ s.scan.1 = .token t

/-- `t` goes on into `u`, or opens a comment with it, if nothing stands between them. -/
def Merges (t u : Token) : Prop :=
  ∃ d, u.lexeme.toList.head? = some d ∧
    (t.kind.isWord = true ∧ isWordPart d = true ∨ t.kind = .number ∧ d.isDigit = true ∨
      (t.lexeme = "=" ∨ t.lexeme = "!") ∧ d = '=' ∨ t.lexeme = "/" ∧ (d = '/' ∨ d = '*'))

def core (t : Token) : Kind × String × Option Value := (t.kind, t.lexeme, t.value)

structure Proper (t : Token) : Prop where
  form : t.kind.Form t.lexeme.toList
  value : t.value = t.kind.valueOf t.lexeme.toList
  kind_ne : t.kind ≠ .endOfInput

theorem Scanned.proper {t : Token} (h : t.Scanned) (hend : t.isEnd = false) : t.Proper := by
  obtain ⟨s, hr, hs, ht⟩ := h
  obtain ⟨front, ahead, pending, hst⟩ := hr.stands
  have hk : t.kind ≠ .endOfInput := by simpa [isEnd] using hend
  cases pending with
  | zero =>
    obtain ⟨gap, r, rfl, hg, hreads⟩ := Cursor.exists_reads ahead
    rw [Session.scan, hst.cursor_eq, Cursor.scan_behind _ _ hg hreads,
      Step.outcome_ofReading _ _ _ _ hs] at ht
    generalize r.text ++ r.rest = cs at hreads ht
    cases hreads with
    | lexeme kind text rest h hr =>
      cases ht
      have htext : (String.ofList text).toList = text := String.toList_ofList
      exact ⟨by rwa [Settings.token, htext], by rw [Settings.token, htext], hk⟩
    | _ => cases ht
  | succ n =>
    rw [hst.scan_inside] at ht
    cases ht

theorem Proper.merges_iff {t : Token} (h : t.Proper) (u : Token) :
    t.Merges u ↔ ¬ Stops (grows t.lexeme.toList) u.lexeme.toList := by
  have hgrows := Reading.grows_iff h.form h.kind_ne
  have htext : ∀ s : String, t.lexeme = s ↔ t.lexeme.toList = s.toList := fun s =>
    String.toList_inj.symm
  simp only [Merges, Stops, htext, Classical.not_forall, Bool.not_eq_false, String.reduceToList]
  constructor
  · rintro ⟨d, hd, hm⟩
    exact ⟨d, hd, (hgrows d).2 hm⟩
  · rintro ⟨d, hd, hm⟩
    exact ⟨d, hd, (hgrows d).1 hm⟩

/-- Where a token of the right kind and value is found again, it is found as it was. -/
theorem Proper.spot_tokenAt {t : Token} (h : t.Proper) (s : Settings) (front : List Char)
    (hfit : Text.width front < UInt32.size) :
    ((s.tokenAt t.kind front t.lexeme.toList).core,
      (s.tokenAt t.kind front t.lexeme.toList).startsAt) = (t.core, Text.width front) := by
  have hoff := s.offset_positionAt front hfit
  rw [startsAt, Settings.tokenAt, hoff, core, core, h.value, String.ofList_toList]

end Token

/-- Nothing in a gap lengthens a lexeme, unless a slash stands right in front of a comment. -/
theorem stops_gap {kind : Kind} {text gap rest : List Char} (h : kind.Form text)
    (hk : kind ≠ .endOfInput) (hg : Gap gap rest) (hne : gap ≠ [])
    (hslash : text = ['/'] → ∃ c, gap.head? = some c ∧ isSpacing c = true) (after : List Char) :
    Stops (grows text) (gap ++ after) := by
  obtain ⟨c, gap, rfl⟩ := List.exists_cons_of_ne_nil hne
  intro d hd
  obtain rfl : c = d := by simpa using hd
  have hc : isSpacing c = true ∨ c = '/' ∧ text ≠ ['/'] := by
    rcases hg.head with hc | rfl
    · exact Or.inl hc
    · refine Or.inr ⟨rfl, fun ht => ?_⟩
      obtain ⟨c, hc, hs⟩ := hslash ht
      cases hc
      cases hs
  rw [Bool.eq_false_iff, Ne, Reading.grows_iff h hk]
  rcases hc with hc | ⟨rfl, ht⟩
  · simp only [isSpacing, Bool.or_eq_true, beq_iff_eq] at hc
    rcases hc with ((rfl | rfl) | rfl) | rfl <;> simp +decide
  · simp +decide [ht]

/-! ## Printing -/

def printed (items : List (Token × List Char)) : List Char :=
  items.flatMap fun p => p.1.lexeme.toList ++ p.2

/-- The gap in front and those behind the tokens are complete trivia. Only the last may end in a
line comment without its line feed. -/
def Gapped : List Char → List (Token × List Char) → Prop
  | gap, [] => Gap gap []
  | gap, (_, next) :: items => Sealed gap ∧ Gapped next items

/-- No token merges into the one right behind it. -/
def Separate : List (Token × List Char) → Prop
  | [] => True
  | (t, gap) :: items => (gap = [] → ∀ p, items.head? = some p → ¬ t.Merges p.1) ∧ Separate items

/-- The printed tokens, each at its byte offset, the first at `n`, and the end of the input. -/
def placed : Nat → List (Token × List Char) → List ((Kind × String × Option Value) × Nat)
  | n, [] => [((.endOfInput, "", none), n)]
  | n, (t, gap) :: items => (t.core, n) :: placed (n + Text.width (t.lexeme.toList ++ gap)) items

theorem printed_cons (t : Token) (gap : List Char) (items : List (Token × List Char)) :
    printed ((t, gap) :: items) = t.lexeme.toList ++ (gap ++ printed items) := by
  simp [printed]

theorem Gapped.gap {gap : List Char} {items : List (Token × List Char)} (h : Gapped gap items) :
    Gap gap (printed items) := by
  cases items with
  | nil => exact h
  | cons p items => exact h.1.gap _

/-- A printed token is read to its end exactly if it does not merge into the next. -/
theorem stops_printed {t : Token} {gap : List Char} {items : List (Token × List Char)}
    (ht : t.Proper) (hg : Gapped gap items) (hitems : ∀ p ∈ items, p.1.Proper)
    (hslash : t.lexeme = "/" → gap = [] ∨ ∃ c, gap.head? = some c ∧ isSpacing c = true) :
    Stops (grows t.lexeme.toList) (gap ++ printed items) ↔
      (gap = [] → ∀ p, items.head? = some p → ¬ t.Merges p.1) := by
  by_cases hne : gap = []
  · subst hne
    rcases items with _ | ⟨⟨u, next⟩, items⟩
    · simp [Stops, printed]
    · have hu := hitems _ List.mem_cons_self
      obtain ⟨c, cs, hcs⟩ := List.exists_cons_of_ne_nil (Reading.ne_nil_of_form hu.form hu.kind_ne)
      rw [printed_cons, List.nil_append]
      simp [ht.merges_iff, Stops, hcs]
  · refine ⟨fun _ h => absurd h hne, fun _ => ?_⟩
    refine stops_gap ht.form ht.kind_ne hg.gap hne (fun hl => ?_) _
    refine (hslash ?_).resolve_left hne
    exact String.toList_inj.1 hl

section Run

variable {s : Settings} (hs : s.lenient = false)
include hs

/-- The first token of a run that finds the end of the input, and the run behind it. -/
theorem cons_of_run {front ahead : List Char} {t : Token} {ts : List Token}
    (hf : ((Cursor.behind front ahead).run s).fault = none)
    (ht : ((Cursor.behind front ahead).run s).tokens = t :: ts) :
    ∃ gap kind text rest, ahead = gap ++ (text ++ rest) ∧ Stops (grows text) rest ∧
      t = s.tokenAt kind (front ++ gap) text ∧ (t.isEnd = false →
        ((Cursor.behind (front ++ gap ++ text) rest).run s).fault = none ∧
          ((Cursor.behind (front ++ gap ++ text) rest).run s).tokens = ts) := by
  induction front, ahead using Cursor.reading_induction with
  | lexeme front gap kind text rest hg h hr hk _ =>
    rw [Cursor.run_lexeme front s hg h hr hk] at hf ht
    cases ht
    exact ⟨gap, kind, text, rest, rfl, hr, rfl, fun _ => ⟨hf, rfl⟩⟩
  | finish front gap hg =>
    rw [Cursor.run_finish front s hg] at ht
    cases ht
    refine ⟨gap, .endOfInput, [], [], by simp, by simp [Stops], rfl, ?_⟩
    intro hend
    cases hend
  | trouble front gap cause cs text rest hg h =>
    rw [Cursor.run_trouble front s hg h (by simp [hs])] at hf
    cases hf

/-- If a run begins with `t` where it was printed, `t` was read to its end there. -/
theorem stops_of_run {front lead rest : List Char} {t : Token}
    {spots : List ((Kind × String × Option Value) × Nat)}
    (hfit : Text.width (front ++ (lead ++ (t.lexeme.toList ++ rest))) < UInt32.size)
    (hf : ((Cursor.behind front (lead ++ (t.lexeme.toList ++ rest))).run s).fault = none)
    (hm : ((Cursor.behind front (lead ++ (t.lexeme.toList ++ rest))).run s).tokens.map
      (fun t => (t.core, t.startsAt)) = (t.core, Text.width (front ++ lead)) :: spots) :
    Stops (grows t.lexeme.toList) rest := by
  obtain ⟨u, us, hus, hu, -⟩ := List.map_eq_cons_iff.1 hm
  obtain ⟨gap, kind, text, after, hahead, hstops, rfl, -⟩ := cons_of_run hs hf hus
  rw [hahead] at hfit
  have hoff := s.offset_positionAt (front ++ gap) (by simp at hfit ⊢; omega)
  rw [Token.startsAt, Settings.tokenAt, hoff, Token.core, Token.core] at hu
  simp only [Prod.mk.injEq, Text.width_append, Nat.add_left_cancel_iff] at hu
  obtain ⟨⟨-, htext, -⟩, hwidth⟩ := hu
  -- the text is cut twice at the same places, so the same stands behind `t`
  obtain ⟨-, hcs⟩ := Text.append_inj_of_width hahead hwidth.symm
  obtain rfl : text = t.lexeme.toList := by rw [← htext, String.toList_ofList]
  rwa [List.append_cancel_left hcs]

theorem run_printed (items : List (Token × List Char)) (lead front : List Char)
    (hg : Gapped lead items) (hitems : ∀ p ∈ items, p.1.Proper)
    (hslash : ∀ p ∈ items, p.1.lexeme = "/" →
      p.2 = [] ∨ ∃ c, p.2.head? = some c ∧ isSpacing c = true)
    (hfit : Text.width (front ++ (lead ++ printed items)) + 1 < UInt32.size) :
    Separate items ↔ ((Cursor.behind front (lead ++ printed items)).run s).fault = none ∧
      ((Cursor.behind front (lead ++ printed items)).run s).tokens.map
        (fun t => (t.core, t.startsAt)) = placed (Text.width (front ++ lead)) items := by
  induction items generalizing lead front with
  | nil =>
    have hlead : lead ++ printed [] = lead := List.append_nil lead
    rw [hlead] at hfit ⊢
    have hoff := s.offset_positionAt (front ++ lead) (by omega)
    rw [Cursor.run_finish front s hg]
    simp only [Separate, placed, List.map_cons, List.map_nil, true_iff, true_and]
    rw [Token.startsAt, Settings.tokenAt, hoff]
    rfl
  | cons p items ih =>
    obtain ⟨t, gap⟩ := p
    obtain ⟨hsealed, hgap⟩ := hg
    have ht := hitems _ List.mem_cons_self
    have hrest : ∀ q ∈ items, q.1.Proper := fun q hq => hitems q (List.mem_cons_of_mem _ hq)
    have hstops := stops_printed ht hgap hrest (hslash _ List.mem_cons_self)
    rw [printed_cons] at hfit ⊢
    rw [Separate, placed, ← hstops]
    by_cases hnext : Stops (grows t.lexeme.toList) (gap ++ printed items)
    · have ih' := ih gap (front ++ lead ++ t.lexeme.toList) hgap hrest
        (fun q hq => hslash q (List.mem_cons_of_mem _ hq)) (by simpa using hfit)
      have hspot := ht.spot_tokenAt s (front ++ lead) (by simp at hfit ⊢; omega)
      rw [Cursor.run_lexeme front s (hsealed.gap _) ht.form hnext ht.kind_ne]
      simp only [Run.behind, List.singleton_append, List.map_cons, hspot, List.cons.injEq, true_and,
        hnext]
      rw [ih', List.append_assoc (front ++ lead), Text.width_append (front ++ lead)]
    · refine ⟨fun h => absurd h.1 hnext, fun h => absurd ?_ hnext⟩
      exact stops_of_run hs (by omega) h.1 h.2

theorem not_merges_of_run {front : List Char} {t u : Token}
    {rest : List (Kind × String × Option Value)} (ht : t.Proper)
    (hf : ((Cursor.behind front (t.lexeme.toList ++ u.lexeme.toList)).run s).fault = none)
    (hm : ((Cursor.behind front (t.lexeme.toList ++ u.lexeme.toList)).run s).tokens.map
      Token.core = t.core :: u.core :: rest) : ¬ t.Merges u := by
  obtain ⟨t', us, hts, hcore, hus⟩ := List.map_eq_cons_iff.1 hm
  obtain ⟨u', us, rfl, hcore', -⟩ := List.map_eq_cons_iff.1 hus
  obtain ⟨gap, kind, text, after, hahead, hstops, rfl, hnext⟩ := cons_of_run hs hf hts
  simp only [Token.core, Settings.tokenAt, Prod.mk.injEq] at hcore
  obtain ⟨rfl, htext, -⟩ := hcore
  obtain ⟨hf', hts'⟩ := hnext (beq_false_of_ne ht.kind_ne)
  obtain ⟨gap', kind', text', after', rfl, -, rfl, -⟩ := cons_of_run hs hf' hts'
  simp only [Token.core, Settings.tokenAt, Prod.mk.injEq] at hcore'
  obtain ⟨-, htext', -⟩ := hcore'
  rw [← htext, ← htext', String.toList_ofList, String.toList_ofList] at hahead
  -- both lexemes stand in the text, so nothing else does
  have hlength := congrArg List.length hahead
  simp only [List.length_append] at hlength
  have hgap : gap = [] := List.length_eq_zero_iff.1 (by omega)
  have hgap' : gap' = [] := List.length_eq_zero_iff.1 (by omega)
  have hafter : after' = [] := List.length_eq_zero_iff.1 (by omega)
  subst hgap hgap' hafter
  rw [ht.merges_iff, Classical.not_not, ← htext, ← htext', String.toList_ofList,
    String.toList_ofList]
  simpa using hstops

end Run

/-- Printed tokens are scanned again as they were, each where it was printed, exactly if none merges
into the next; and two that merge are not found again in the text of both. -/
theorem tokenize_printed (lead : List Char) (items : List (Token × List Char))
    (file : Option String) (hscan : ∀ p ∈ items, p.1.Scanned ∧ p.1.isEnd = false)
    (hgap : Gapped lead items)
    (hslash : ∀ p ∈ items, p.1.lexeme = "/" →
      p.2 = [] ∨ ∃ c, p.2.head? = some c ∧ isSpacing c = true)
    (hfit : (String.ofList (lead ++ printed items)).utf8ByteSize + 1 < UInt32.size) :
    (Separate items ↔ ∃ ts, tokenize (String.ofList (lead ++ printed items)) file = .ok ts ∧
      ts.map (fun t => (t.core, t.startsAt)) = placed (Text.width lead) items) ∧
    ∀ t u : Token, t.Scanned → t.isEnd = false → u.Scanned → u.isEnd = false → t.Merges u →
      ∀ ts, tokenize (t.lexeme ++ u.lexeme) file = .ok ts →
        ts.map Token.core ≠ [t.core, u.core, (.endOfInput, "", none)] := by
  have hs : (Settings.named file false).lenient = false := rfl
  refine ⟨?_, ?_⟩
  · have hitems : ∀ p ∈ items, p.1.Proper := fun p hp => (hscan p hp).1.proper (hscan p hp).2
    have hrun := run_printed hs items lead [] hgap hitems hslash
      (by rwa [List.nil_append, Text.width_ofList])
    simp only [tokenize_eq_ok_iff, Run.of_eq, String.toList_ofList]
    rw [hrun]
    refine ⟨fun h => ⟨_, ⟨h.1, rfl⟩, h.2⟩, ?_⟩
    rintro ⟨_, ⟨hf, rfl⟩, hm⟩
    exact ⟨hf, hm⟩
  · intro t u ht htend _ _ hm ts hts hcore
    rw [tokenize_eq_ok_iff, Run.of_eq, String.toList_append] at hts
    obtain ⟨hf, rfl⟩ := hts
    exact not_merges_of_run hs (ht.proper htend) hf hcore hm

theorem tokenize_printed_slash :
    let equal : Token := ⟨.assignment, "=", none, 2, 2, ⟨⟨2, "shell"⟩, ⟨3, "shell"⟩⟩⟩
    let slash : Token := ⟨.multiplicative, "/", none, 1, 1, ⟨⟨0, "shell"⟩, ⟨1, "shell"⟩⟩⟩
    let lead := ['/', '/', '\n']
    let items := [(equal, []), (slash, [' ', '/', '*', '*', '/']), (equal, ['/', '/'])]
    equal.Scanned ∧ slash.Scanned ∧ Gapped lead items ∧ Separate items ∧
      (∃ ts, tokenize (String.ofList (lead ++ printed items)) none = .ok ts ∧
        ts.map (fun t => (t.core, t.startsAt)) = placed (Text.width lead) items) ∧
      ∀ ts, tokenize (equal.lexeme ++ equal.lexeme) none = .ok ts →
        ts.map Token.core ≠ [equal.core, equal.core, (.endOfInput, "", none)] := by
  intro equal slash lead items
  have hequal : equal.Scanned :=
    ⟨(Session.start (.named none false) "a\n=").scan.2, .scan (.start _ _), by decide +kernel,
      by decide +kernel⟩
  have hslash : slash.Scanned :=
    ⟨Session.start (.named none false) "/", .start _ _, rfl, by decide +kernel⟩
  have hgap : Gapped lead items :=
    ⟨@Sealed.line [] _ (by decide) .nil, .nil, .blank rfl (@Sealed.block [] _ (by decide) .nil),
      .cons (@Trivia.Piece.line [] _ (by decide) (Or.inl rfl)) .nil⟩
  have hmerges : equal.Merges equal := ⟨'=', by decide, by decide⟩
  have happart : ¬ equal.Merges slash := by
    rintro ⟨d, hd, hm⟩
    have htext : slash.lexeme.toList.head? = some '/' := by decide +kernel
    obtain rfl : d = '/' := Option.some.inj (hd.symm.trans htext)
    revert hm
    decide +kernel
  have hsep : Separate items := by
    refine ⟨fun _ p hp => ?_, fun h => ?_, fun _ p hp => ?_, trivial⟩
    · cases hp
      exact happart
    · cases h
    · cases hp
  have hscan : ∀ p ∈ items, p.1.Scanned ∧ p.1.isEnd = false := by
    simp +decide [items, hequal, hslash, equal, slash]
  have hblank : ∀ p ∈ items, p.1.lexeme = "/" →
      p.2 = [] ∨ ∃ c, p.2.head? = some c ∧ isSpacing c = true := by
    simp +decide [items, equal]
  have hprinted := tokenize_printed lead items none hscan hgap hblank (by decide +kernel)
  exact ⟨hequal, hslash, hgap, hsep, hprinted.1.1 hsep,
    hprinted.2 equal equal hequal rfl hequal rfl hmerges⟩

end ScriptScan
