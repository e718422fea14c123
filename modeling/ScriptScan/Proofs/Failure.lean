import ScriptScan.Proofs.Reach

/-!
# When a strict scan fails

`Cause.Stands` tells by the text behind the longest gap whether a trouble stands there. A strict
scan fails with a cause exactly where it stands, at that place, and finds a token everywhere else
(`Session.scan_fails_iff`).
-/

namespace ScriptScan

open Trivia (Gap Longest Stops piece?)
open Reading (Reads)

/-- A trouble that stands at the beginning of a text: a quote that no other follows, the opening
mark of a block comment, a run of digits above the largest number, or a character with which no
lexeme begins. -/
def Cause.Stands : Cause → List Char → Prop
  | openString, cs => ∃ body, cs = '"' :: body ∧ '"' ∉ body
  | openComment, cs => ['/', '*'] <+: cs
  | numberTooLarge digits, cs => digits.toList = cs.takeWhile Char.isDigit ∧ digits ≠ ""
    ∧ 9223372036854775807 < Nat.ofDigitChars 10 digits.toList 0
  | unexpected c, cs => cs.head? = some c ∧ begins c = false

theorem reads_of_stands {cause : Cause} {cs : List Char} (hn : piece? cs = none)
    (h : cause.Stands cs) : ∃ text rest, Reads cs ⟨.trouble cause, text, rest⟩ := by
  cases cause with
  | openString =>
    obtain ⟨body, rfl, hb⟩ := h
    exact ⟨_, _, .openString hb⟩
  | openComment =>
    obtain ⟨body, rfl⟩ := h
    exact ⟨_, _, .openComment (Trivia.closeFrom_eq_none_iff.1 hn)⟩
  | numberTooLarge digits =>
    obtain ⟨hd, hne, hl⟩ := h
    have hall : ∀ d ∈ digits.toList, d.isDigit = true := by
      rw [hd]
      exact List.all_eq_true.1 List.all_takeWhile
    have hread := Reads.tooLarge (by simpa using hne) hall
      (Trivia.stops_dropWhile Char.isDigit cs) hl
    rw [hd, List.takeWhile_append_dropWhile, ← hd, String.ofList_toList] at hread
    exact ⟨_, _, hread⟩
  | unexpected c =>
    obtain ⟨hc, hb⟩ := h
    obtain ⟨cs, rfl⟩ : ∃ ds, cs = c :: ds := by
      cases cs <;> simp_all
    exact ⟨_, _, .unexpected hb (Trivia.isSpacing_of_piece?_eq_none hn)⟩

theorem stands_iff {cause : Cause} {cs : List Char} {r : Reading} (hr : Reads cs r) :
    cause.Stands cs ↔ r.finding = .trouble cause := by
  constructor
  · intro h
    obtain ⟨hn, hof⟩ := Reading.reads_iff.1 hr
    obtain ⟨text, rest, hr'⟩ := reads_of_stands hn h
    rw [← hof, (Reading.reads_iff.1 hr').2]
  · intro h
    cases hr with
    | lexeme => cases h
    | openString hb =>
      cases h
      exact ⟨_, rfl, hb⟩
    | @openComment body =>
      cases h
      exact ⟨body, rfl⟩
    | @tooLarge digits rest hne hd hr hl =>
      cases h
      refine ⟨?_, by simpa using hne, ?_⟩
      · rw [String.toList_ofList, List.takeWhile_append_of_pos hd, hr.takeWhile, List.append_nil]
      · rw [String.toList_ofList]
        exact hl
    | unexpected hb =>
      cases h
      exact ⟨rfl, hb⟩

namespace Session

/-- A strict scan fails with a cause exactly if it stands behind the longest gap, at that place, and
finds a token if none does. -/
theorem scan_fails_iff {s : Session} (h : s.Reachable) (hs : s.settings.lenient = false)
    (hfit : s.source.utf8ByteSize + 1 < UInt32.size) {ahead : List Char}
    (ha : s.ahead? = some ahead) :
    ∃ gap rest, Longest ahead gap rest ∧
      (∀ cause, (∃ f, s.scan.1 = .fault f ∧ f.cause = cause) ↔ cause.Stands rest) ∧
      ((∃ t, s.scan.1 = .token t) ↔ ∀ cause : Cause, ¬ cause.Stands rest) ∧
      (['/', '*'] <+: rest → ¬ ['*', '/'] <:+: rest.drop 2) ∧
      ∀ f, s.scan.1 = .fault f →
        f.position.offset.toNat = s.offset + Text.width gap ∧ f.position.file = s.settings.file ∧
          ∃ front, Text.take? s.source.toList (s.offset + Text.width gap) = some front ∧
            f.line.toNat = 1 + front.count '\n' := by
  obtain ⟨front, gap, r, hsource, hoff, rfl, hg, hr, hscan⟩ := h.scan_eq ha
  rw [Step.outcome_ofReading _ _ _ _ hs] at hscan
  rw [← Text.width_toList, hsource] at hfit
  generalize r.text ++ r.rest = rest at *
  have hn := Reading.piece?_of_reads hr
  refine ⟨gap, rest, Trivia.longest_of_gap hg hn, ?_, ?_, ?_, ?_⟩
  · intro cause
    rw [stands_iff hr, hscan]
    cases r.finding <;> simp [Settings.fault]
  · simp only [stands_iff hr, hscan]
    cases r.finding <;> simp
  · rintro ⟨body, rfl⟩
    exact Trivia.closeFrom_eq_none_iff.1 hn
  · intro f hf
    rw [hscan] at hf
    cases hfind : r.finding with
    | lexeme =>
      rw [hfind] at hf
      cases hf
    | trouble cause =>
      rw [hfind] at hf
      cases hf
      have hwidth : Text.width (front ++ gap) + 1 < UInt32.size := by
        simp at hfit ⊢
        omega
      rw [hoff, ← Text.width_append, hsource, ← List.append_assoc, Text.take?_append]
      refine ⟨s.settings.offset_positionAt _ (by omega), rfl, front ++ gap, rfl, ?_⟩
      exact toNat_lineAt hwidth

theorem scan_fails_slashed :
    ∃ s : Session, s.Reachable ∧ s.settings.lenient = false ∧
      s.source.utf8ByteSize + 1 < UInt32.size ∧ s.ahead? = some " /*/".toList ∧
        s.scan.1 = .fault ⟨.openComment, 1, ⟨6, "shell"⟩⟩ ∧
        ∃ gap rest, Trivia.Longest " /*/".toList gap rest ∧
          ∀ cause, (∃ f, s.scan.1 = .fault f ∧ f.cause = cause) ↔ cause.Stands rest := by
  have hr : (start (.named none false) "é 00 /*/").scan.2.scan.2.scan.2.Reachable :=
    .scan (.scan (.scan (.start _ _)))
  have ha : (start (.named none false) "é 00 /*/").scan.2.scan.2.scan.2.ahead? =
      some " /*/".toList := by decide +kernel
  obtain ⟨gap, rest, hl, hc, -⟩ := scan_fails_iff hr (by decide +kernel) (by decide +kernel) ha
  exact ⟨_, hr, by decide +kernel, by decide +kernel, ha, by decide +kernel, gap, rest, hl, hc⟩

end Session

end ScriptScan
