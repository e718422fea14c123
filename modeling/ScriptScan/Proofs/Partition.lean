import ScriptScan.Proofs.Place

/-!
# Runs lose nothing

The tokens of a strict run stand in their source in order, each over its own lexeme, and between
them stands nothing but trivia (`Run.partitions`). So does the fault, if one ends the run; else the
last token, and only that, is the end of the input, and the run has covered the whole source.
-/

namespace ScriptScan

open Trivia (Gap Stops)
open Reading (Reads)

/-- The bytes from `n` to `m` of a source are complete pieces of trivia. -/
def GapBetween (source : List Char) (n m : Nat) : Prop :=
  n ≤ m ∧ ∃ gap rest, Text.slice? source n m = some gap ∧ Text.drop? source m = some rest
    ∧ Gap gap rest

/-- Tokens that stand one after the other from byte `n` to byte `m` of a source, with trivia in
front of each. -/
def Laid (source : List Char) : Nat → List Token → Nat → Prop
  | n, [], m => n = m
  | n, t :: ts, m => GapBetween source n t.startsAt ∧ Laid source t.stopsAt ts m

/-- A token over its lexeme: the bytes of its span in the form of its kind, and their value. -/
structure Token.Exact (source : List Char) (t : Token) : Prop where
  slice : Text.slice? source t.startsAt t.stopsAt = some t.lexeme.toList
  form : t.kind.Form t.lexeme.toList
  value : t.value = t.kind.valueOf t.lexeme.toList
  starts_lt : t.isEnd = false → t.startsAt < t.stopsAt

/-- A run that accounts for a source from byte `n` on. -/
structure Run.Partitions (source : List Char) (n : Nat) (run : Run) : Prop where
  exact : ∀ t ∈ run.tokens, t.Exact source
  laid : ∃ m, Laid source n run.tokens m
    ∧ ∀ f, run.fault = some f → GapBetween source m f.position.offset.toNat
  finished : run.fault = none → ∃ ts t, run.tokens = ts ++ [t] ∧ (∀ u ∈ ts, u.isEnd = false)
    ∧ t.isEnd = true ∧ t.startsAt = Text.width source ∧ t.stopsAt = Text.width source
  unfinished : ∀ f, run.fault = some f → ∀ t ∈ run.tokens, t.isEnd = false

section Steps

variable {front gap text rest : List Char}

theorem gapBetween_of_gap (hg : Gap gap rest) :
    GapBetween (front ++ gap ++ rest) (Text.width front) (Text.width (front ++ gap)) := by
  refine ⟨by simp, gap, rest, ?_, ?_, hg⟩
  · rw [Text.width_append, Text.slice?_append]
  · rw [Text.drop?_append]

theorem exact_tokenAt (s : Settings) {kind : Kind} (h : kind.Form text)
    (hfit : Text.width (front ++ text ++ rest) + 1 < UInt32.size) :
    (s.tokenAt kind front text).Exact (front ++ text ++ rest) := by
  have hstart := s.offset_positionAt front (by simp at hfit; omega)
  have hstop := s.offset_positionAt (front ++ text) (by simp at hfit ⊢; omega)
  refine ⟨?_, ?_, ?_, ?_⟩
  · simp only [Token.startsAt, Token.stopsAt, Settings.tokenAt, hstart, hstop, String.toList_ofList]
    rw [Text.width_append, Text.slice?_append]
  · simpa [Settings.tokenAt] using h
  · simp [Settings.tokenAt]
  · intro hend
    simp only [Token.startsAt, Token.stopsAt, Settings.tokenAt, hstart, hstop]
    rcases Reading.begins_of_form h with ⟨rfl, -⟩ | ⟨c, cs, rfl, -⟩
    · cases hend
    · have := c.utf8Size_pos
      simp
      omega

end Steps

namespace Run.Partitions

variable {source : List Char} {n : Nat}

theorem behind {t : Token} {run : Run} (hgap : GapBetween source n t.startsAt)
    (ht : t.Exact source) (hend : t.isEnd = false) (h : run.Partitions source t.stopsAt)
    (events : List Event) : (run.behind [t] events).Partitions source n := by
  refine ⟨?_, ?_, fun hf => ?_, fun f hf => ?_⟩
  · intro u hu
    rcases List.mem_cons.1 hu with rfl | hu
    · exact ht
    · exact h.exact u hu
  · obtain ⟨m, hm, hf⟩ := h.laid
    exact ⟨m, ⟨hgap, hm⟩, hf⟩
  · obtain ⟨ts, u, hts, hmem, hu⟩ := h.finished hf
    refine ⟨t :: ts, u, congrArg (t :: ·) hts, ?_, hu⟩
    intro v hv
    rcases List.mem_cons.1 hv with rfl | hv
    · exact hend
    · exact hmem v hv
  · intro u hu
    rcases List.mem_cons.1 hu with rfl | hu
    · exact hend
    · exact h.unfinished f hf u hu

end Run.Partitions

theorem partitions_run {s : Settings} (hs : s.lenient = false) {source : List Char}
    (hfit : Text.width source + 1 < UInt32.size) (front ahead : List Char) :
    source = front ++ ahead →
      ((Cursor.behind front ahead).run s).Partitions source (Text.width front) := by
  induction front, ahead using Cursor.reading_induction with
  | lexeme front gap kind text rest hg h hr hk ih =>
    rintro rfl
    have hsource : front ++ (gap ++ (text ++ rest)) = front ++ gap ++ text ++ rest := by simp
    have hwidth := s.offset_positionAt (front ++ gap) (by simp at hfit ⊢; omega)
    rw [Cursor.run_lexeme front s hg h hr hk]
    refine .behind ?_ ?_ (beq_false_of_ne hk) ?_ _
    · rw [Token.startsAt, Settings.tokenAt, hwidth, ← List.append_assoc]
      exact gapBetween_of_gap hg
    · rw [hsource] at hfit ⊢
      exact exact_tokenAt s h hfit
    · have := s.offset_positionAt (front ++ gap ++ text) (by simp at hfit ⊢; omega)
      rw [Token.stopsAt, Settings.tokenAt, this]
      exact ih hsource
  | finish front gap hg =>
    rintro rfl
    have hwidth := s.offset_positionAt (front ++ gap) (by simp at hfit ⊢; omega)
    have hexact := @exact_tokenAt (front ++ gap) [] [] s .endOfInput rfl (by simpa using hfit)
    rw [Cursor.run_finish front s hg]
    simp only [List.append_nil] at hexact
    have hgap := @gapBetween_of_gap front gap [] hg
    rw [List.append_nil] at hgap
    refine ⟨by simpa using hexact, ⟨_, ⟨?_, rfl⟩, by simp⟩, fun _ => ?_, by simp⟩
    · rwa [Token.startsAt, Settings.tokenAt, hwidth]
    · refine ⟨[], _, rfl, by simp, rfl, ?_, ?_⟩
      · exact hwidth
      · rw [Token.stopsAt, Settings.tokenAt, List.append_nil]
        exact hwidth
  | trouble front gap cause cs text rest hg h =>
    rintro rfl
    have hwidth := s.offset_positionAt (front ++ gap) (by simp at hfit ⊢; omega)
    rw [Cursor.run_trouble front s hg h (by simp [hs])]
    refine ⟨by simp, ⟨_, rfl, ?_⟩, by simp, by simp⟩
    intro f hf
    cases hf
    rw [Settings.faultAt, hwidth, ← List.append_assoc]
    exact gapBetween_of_gap hg

/-- A strict run accounts for its whole source, and `tokenize` gives the tokens of that run. -/
theorem run_partitions_source (source : String) (file : Option String)
    (h : source.utf8ByteSize + 1 < UInt32.size) :
    (Run.of (.named file false) source).Partitions source.toList 0 ∧
      ∀ ts, tokenize source file = .ok ts ↔
        (Run.of (.named file false) source).fault = none ∧
          (Run.of (.named file false) source).tokens = ts := by
  have hfit : Text.width source.toList + 1 < UInt32.size := by rwa [Text.width_toList]
  refine ⟨?_, fun _ => tokenize_eq_ok_iff⟩
  rw [Run.of_eq]
  exact partitions_run rfl hfit [] source.toList rfl

theorem run_partitions_comments :
    "a/**//*/*/ \"é\"".utf8ByteSize + 1 < UInt32.size ∧
      (Run.of (.named none false) "a/**//*/*/ \"é\"").Partitions "a/**//*/*/ \"é\"".toList 0 ∧
        (Run.of (.named none false) "a/**//*/*/ \"é\"").tokens.map
          (fun t => (t.lexeme, t.startsAt, t.stopsAt)) =
            [("a", 0, 1), ("\"é\"", 11, 15), ("", 15, 15)] :=
  ⟨by decide, (run_partitions_source _ none (by decide)).1, by decide +kernel⟩

end ScriptScan
