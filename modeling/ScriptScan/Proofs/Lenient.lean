import ScriptScan.Session
import ScriptScan.Proofs.Place

/-!
# Strict and lenient runs

A lenient run over a source goes the way of the strict one until a literal or a comment is left open
(`Run.Refines`). There the strict run ends with its fault, and the lenient one takes what is left of
the source, as a literal or as trivia, and ends with the end of the input. No lenient scan fails for
an open literal or comment.
-/

namespace ScriptScan

open Trivia (Gap)
open Reading (Reads)

/-- The end of the input behind the whole source. -/
structure Token.Closes (source : List Char) (t : Token) : Prop where
  kind : t.kind = .endOfInput
  lexeme : t.lexeme = ""
  starts : t.startsAt = Text.width source
  stops : t.stopsAt = Text.width source
  startLine : t.startLine.toNat = 1 + source.count '\n'
  endLine : t.endLine.toNat = 1 + source.count '\n'

/-- The literal that takes what is left of a source from a fault on. -/
structure Token.Cuts (source : List Char) (f : Fault) (t : Token) : Prop where
  kind : t.kind = .string
  starts : t.span.start = f.position
  stops : t.stopsAt = Text.width source
  lexeme : Text.drop? source t.startsAt = some t.lexeme.toList
  value : ∃ body, Text.drop? source (t.startsAt + 1) = some body
    ∧ t.value = some (.string (String.ofList body))
  startLine : t.startLine = f.line
  endLine : t.endLine.toNat = 1 + source.count '\n'

/-- How a lenient run over a source goes on where the strict one ends. -/
structure Run.Refines (source : List Char) (lenient strict : Run) : Prop where
  agrees : (∀ f, strict.fault = some f → f.cause ≠ .openString ∧ f.cause ≠ .openComment) →
    lenient.tokens = strict.tokens ∧ lenient.fault = strict.fault
  cutsString : ∀ f, strict.fault = some f → f.cause = .openString → lenient.fault = none ∧
    ∃ t u : Token, lenient.tokens = strict.tokens ++ [t, u] ∧ t.Cuts source f ∧ u.Closes source
  cutsComment : ∀ f, strict.fault = some f → f.cause = .openComment → lenient.fault = none ∧
    ∃ u : Token, lenient.tokens = strict.tokens ++ [u] ∧ u.Closes source

theorem Run.Refines.behind {source : List Char} {lenient strict : Run}
    (h : lenient.Refines source strict) (ts : List Token) (es es' : List Event) :
    (lenient.behind ts es).Refines source (strict.behind ts es') := by
  refine ⟨fun hf => ?_, fun f hf hc => ?_, fun f hf hc => ?_⟩
  · obtain ⟨ht, hfault⟩ := h.agrees hf
    exact ⟨congrArg (ts ++ ·) ht, hfault⟩
  · obtain ⟨hnone, t, u, ht, hcut, hclose⟩ := h.cutsString f hf hc
    refine ⟨hnone, t, u, ?_, hcut, hclose⟩
    simp only [Run.behind, ht, List.append_assoc]
  · obtain ⟨hnone, u, ht, hclose⟩ := h.cutsComment f hf hc
    refine ⟨hnone, u, ?_, hclose⟩
    simp only [Run.behind, ht, List.append_assoc]

section Steps

variable {s l : Settings} {front : List Char}

theorem closes_tokenAt (s : Settings) (hfit : Text.width front + 1 < UInt32.size) :
    (s.tokenAt .endOfInput front []).Closes front := by
  have hoff := s.offset_positionAt front (by omega)
  have hline := toNat_lineAt hfit
  refine ⟨rfl, rfl, hoff, ?_, hline, ?_⟩
  · rwa [Token.stopsAt, Settings.tokenAt, List.append_nil]
  · rwa [Settings.tokenAt, List.append_nil]

theorem cuts_tokenAt (hfile : l.file = s.file) {body : List Char}
    (hfit : Text.width (front ++ '"' :: body) + 1 < UInt32.size) :
    { l.tokenAt .string front ('"' :: body) with
      value := some (.string (String.ofList body)) }.Cuts (front ++ '"' :: body)
        (s.faultAt .openString front) := by
  have hoff : (l.positionAt front).offset.toNat = Text.width front :=
    l.offset_positionAt front (by simp at hfit; omega)
  refine ⟨rfl, ?_, ?_, ?_, ⟨body, ?_, rfl⟩, rfl, toNat_lineAt hfit⟩
  · simp only [Settings.tokenAt, Settings.faultAt, Settings.positionAt, hfile]
  · exact l.offset_positionAt _ (by omega)
  · simp only [Token.startsAt, Settings.tokenAt, hoff, Text.drop?_append, String.toList_ofList]
  · have hquote : Text.width front + 1 = Text.width (front ++ ['"']) := by
      rw [Text.width_append]
      rfl
    simp only [Token.startsAt, Settings.tokenAt, hoff]
    rw [hquote, List.append_cons, Text.drop?_append]

theorem tokenAt_congr (hfile : l.file = s.file) (kind : Kind) (front text : List Char) :
    l.tokenAt kind front text = s.tokenAt kind front text := by
  simp only [Settings.tokenAt, Settings.positionAt, hfile]

theorem faultAt_congr (hfile : l.file = s.file) (cause : Cause) (front : List Char) :
    l.faultAt cause front = s.faultAt cause front := by
  simp only [Settings.faultAt, Settings.positionAt, hfile]

variable {gap body : List Char}

theorem run_openString (hl : l.lenient = true) (hg : Gap gap ('"' :: body)) (hb : '"' ∉ body) :
    ((Cursor.behind front (gap ++ '"' :: body)).run l).fault = none ∧
      ((Cursor.behind front (gap ++ '"' :: body)).run l).tokens =
        [{ l.tokenAt .string (front ++ gap) ('"' :: body) with
            value := some (.string (String.ofList body)) },
          l.tokenAt .endOfInput (front ++ gap ++ '"' :: body) []] := by
  have hscan := Cursor.scan_openString front l hg hb hl
  have hrest := @Cursor.run_finish (front ++ gap ++ '"' :: body) l [] .nil
  rw [Cursor.run_of_token (by rw [hscan]; rfl) rfl, hscan]
  simp only [Step.found, Step.after, Run.behind, hrest, List.append_nil, List.singleton_append,
    and_self]

theorem run_openComment (hl : l.lenient = true) (hg : Gap gap ('/' :: '*' :: body))
    (hb : ¬ ['*', '/'] <:+: body) :
    ((Cursor.behind front (gap ++ '/' :: '*' :: body)).run l).fault = none ∧
      ((Cursor.behind front (gap ++ '/' :: '*' :: body)).run l).tokens =
        [l.tokenAt .endOfInput (front ++ gap ++ '/' :: '*' :: body) []] := by
  have hscan := Cursor.scan_openComment front l hg hb hl
  rw [Cursor.run_of_end (by rw [hscan]; rfl) rfl]
  exact ⟨rfl, rfl⟩

end Steps

theorem refines_run {s l : Settings} (hs : s.lenient = false) (hl : l.lenient = true)
    (hfile : l.file = s.file) {source : List Char} (hfit : Text.width source + 1 < UInt32.size)
    (front ahead : List Char) :
    source = front ++ ahead →
      ((Cursor.behind front ahead).run l).Refines source ((Cursor.behind front ahead).run s) := by
  induction front, ahead using Cursor.reading_induction with
  | lexeme front gap kind text rest hg h hr hk ih =>
    rintro rfl
    rw [Cursor.run_lexeme front s hg h hr hk, Cursor.run_lexeme front l hg h hr hk,
      tokenAt_congr hfile]
    exact (ih (by simp)).behind _ _ _
  | finish front gap hg =>
    rintro rfl
    rw [Cursor.run_finish front s hg, Cursor.run_finish front l hg, tokenAt_congr hfile]
    exact ⟨fun _ => ⟨rfl, rfl⟩, by simp, by simp⟩
  | trouble front gap cause cs text rest hg h =>
    rintro rfl
    rw [← List.append_assoc] at hfit ⊢
    rw [Cursor.run_trouble front s hg h (by simp [hs])]
    by_cases hcut : cause = .openString ∨ cause = .openComment
    · rcases hcut with rfl | rfl
      · cases h with
        | openString hb =>
          obtain ⟨hfault, htokens⟩ := @run_openString l front gap _ hl hg hb
          refine ⟨fun hf => absurd rfl (hf _ rfl).1, ?_, ?_⟩
          · intro f hf _
            cases hf
            exact ⟨hfault, _, _, htokens, cuts_tokenAt hfile hfit, closes_tokenAt l hfit⟩
          · intro f hf hc
            cases hf
            cases hc
      · cases h with
        | openComment hb =>
          obtain ⟨hfault, htokens⟩ := @run_openComment l front gap _ hl hg hb
          refine ⟨fun hf => absurd rfl (hf _ rfl).2, ?_, ?_⟩
          · intro f hf hc
            cases hf
            cases hc
          · intro f hf _
            cases hf
            exact ⟨hfault, _, htokens, closes_tokenAt l hfit⟩
    · rw [not_or] at hcut
      rw [Cursor.run_trouble front l hg h (fun _ => hcut), faultAt_congr hfile]
      refine ⟨fun _ => ⟨rfl, rfl⟩, ?_, ?_⟩
      · intro f hf hc
        cases hf
        exact absurd hc hcut.1
      · intro f hf hc
        cases hf
        exact absurd hc hcut.2

/-- A lenient run refines the strict run over the same source, and no lenient scan fails for an open
literal or comment. -/
theorem lenient_run_refines (source : String) (file : Option String)
    (h : source.utf8ByteSize + 1 < UInt32.size) :
    (Run.of (.named file true) source).Refines source.toList (Run.of (.named file false) source) ∧
      ∀ s : Session, s.settings.lenient = true → ∀ f, s.scan.1 = .fault f →
        f.cause ≠ .openString ∧ f.cause ≠ .openComment := by
  refine ⟨?_, ?_⟩
  · have hs : (Settings.named file false).lenient = false := rfl
    have hl : (Settings.named file true).lenient = true := rfl
    have hfit : Text.width source.toList + 1 < UInt32.size := by rwa [Text.width_toList]
    rw [Run.of, Run.of, Cursor.start_eq]
    exact refines_run hs hl rfl hfit [] source.toList rfl
  · intro s hs f hf
    obtain ⟨cause, c, rfl, hcause⟩ := Cursor.fails_scan s.cursor s.settings f hf
    exact hcause hs

theorem lenient_run_refines_quote :
    let source := "a=\n\"bé\n/*"
    let strict := Run.of (.named none false) source
    let lenient := Run.of (.named none true) source
    source.utf8ByteSize + 1 < UInt32.size ∧ strict.fault = some ⟨.openString, 2, ⟨3, "shell"⟩⟩ ∧
      ∃ t u : Token, lenient.tokens = strict.tokens ++ [t, u] ∧
        t.Cuts source.toList ⟨.openString, 2, ⟨3, "shell"⟩⟩ ∧ u.Closes source.toList := by
  intro source strict lenient
  have hfault : strict.fault = some ⟨.openString, 2, ⟨3, "shell"⟩⟩ := by decide +kernel
  have hrefines := (lenient_run_refines source none (by decide)).1
  exact ⟨by decide, hfault, (hrefines.cutsString _ hfault rfl).2⟩

end ScriptScan
