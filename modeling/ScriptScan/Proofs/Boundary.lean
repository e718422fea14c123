import ScriptScan.Proofs.Calls
import ScriptScan.Proofs.Tracking

/-!
# Character boundaries

Where a scan begins between two characters, every slice that it cuts out of the source begins and
ends between characters. Inside a character no byte begins anything that a scan knows, so the scan
asks for the character there and cannot cut it out. Hence a call breaks off exactly if its position
lies inside a character, and then passes one byte of it. From a boundary a call leads to a boundary,
unless it fails at a character of several bytes: the calls that follow pass the rest of that
character (`Session.Splits`). A run only calls from boundaries, so it never breaks off.
-/

namespace ScriptScan

/-- Byte `n` of a text is one of a character, and not the first of it. -/
def Text.Inside (cs : List Char) (n : Nat) : Prop :=
  ∃ init c rest, cs = init ++ c :: rest ∧ width init < n ∧ n < width init + c.utf8Size

namespace Session

/-- The source can be cut at the position of the session. -/
def OnBoundary (s : Session) : Prop := (String.Pos.Raw.mk s.offset).IsValid s.source

/-- Where a session stands behind the first byte of `c`, which begins at byte `n`: each of its other
bytes takes a call that answers nothing, and then `c` is behind. -/
structure Splits (s : Session) (c : Char) (n : Nat) : Prop where
  source : ∃ init rest, s.source.toList = init ++ c :: rest ∧ Text.width init = n
  offset : s.offset = n + 1
  answers : (scans (c.utf8Size - 1) s).1 = List.replicate (c.utf8Size - 1) .insideCharacter
  passed : (scans (c.utf8Size - 1) s).2.offset = n + c.utf8Size
  boundary : (scans (c.utf8Size - 1) s).2.OnBoundary

variable {s : Session} {front ahead : List Char} {pending : Nat}

theorem Stands.onBoundary_iff (h : s.Stands front ahead pending) :
    s.OnBoundary ↔ pending = 0 := by
  rw [OnBoundary, Text.isValid_iff_drop?]
  show (∃ rest, s.ahead? = some rest) ↔ _
  rw [h.ahead?_eq]
  split <;> simp_all

theorem Stands.inside_iff (h : s.Stands front ahead pending) :
    Text.Inside s.source.toList s.offset ↔ pending ≠ 0 := by
  constructor
  · rintro ⟨init, c, rest, hsource, hlt, hgt⟩ hp
    have hnone := Text.drop?_inside init c rest (k := s.offset - Text.width init) (by omega)
      (by omega)
    have hsome := h.ahead?_eq
    rw [← hsource, Nat.add_sub_cancel' (by omega)] at hnone
    rw [if_pos hp, ahead?, hnone] at hsome
    cases hsome
  · intro hp
    obtain ⟨n, rfl⟩ := Nat.exists_eq_succ_of_ne_zero hp
    obtain ⟨init, c, -, hsource, hoff, hlt⟩ := h.exists_inside
    exact ⟨init, c, ahead, hsource, by omega, by omega⟩

theorem Stands.answer_iff (h : s.Stands front ahead pending) :
    s.scan.1 = .insideCharacter ↔ pending ≠ 0 := by
  have hcall := h.call
  generalize s.scan.1 = o at hcall ⊢
  generalize s.scan.2 = s' at hcall
  cases hcall <;> simp

/-- A call from a boundary leads to a boundary, or into the character at which it failed. -/
theorem Stands.scan_boundary (h : s.Stands front ahead 0) :
    (∃ front' ahead', s.scan.2.Stands front' ahead' 0) ∨
      ∃ f c front' ahead', s.scan.1 = .fault f ∧ f.cause = .unexpected c ∧
        s.scan.2.Stands front' ahead' (c.utf8Size - 1) := by
  have hcall := h.call
  generalize s.scan.1 = o at hcall ⊢
  generalize s.scan.2 = s' at hcall ⊢
  cases hcall with
  | token => exact Or.inl ⟨_, _, stands_behind s _ _⟩
  | @fault cause gap cs text rest hs hg hr =>
    have hnext := stands_fault s (front ++ gap) hr
    cases cause with
    | unexpected c => exact Or.inr ⟨_, c, _, _, rfl, rfl, hnext⟩
    | _ => exact Or.inl ⟨_, _, hnext⟩

theorem Stands.splits {init : List Char} {c : Char}
    (h : s.Stands (init ++ [c]) ahead (c.utf8Size - 1)) : s.Splits c (Text.width init) := by
  have hpassed := stands_behind s (init ++ [c]) ahead
  have hscans := h.scans_inside
  have hsource := h.source
  have hoff := h.offset
  have hoff' := hpassed.offset
  have hwidth : Text.width (init ++ [c]) = Text.width init + c.utf8Size := by simp
  have := c.utf8Size_pos
  rw [List.append_assoc, List.singleton_append] at hsource
  refine ⟨⟨init, ahead, hsource, rfl⟩, by omega, ?_, ?_, ?_⟩ <;> rw [hscans]
  · exact hoff'.trans hwidth
  · exact hpassed.onBoundary_iff.2 rfl

/-- The calls behind a fault at `c` pass the bytes of `c` but the first. -/
theorem Stands.splits_of_fault (h : s.Stands front ahead pending)
    (hfit : s.source.utf8ByteSize + 1 < UInt32.size) {f : Fault} {c : Char}
    (hf : s.scan.1 = .fault f) (hc : f.cause = .unexpected c) :
    s.scan.2.Splits c f.position.offset.toNat := by
  have hcall := h.call
  rw [hf] at hcall
  generalize s.scan.2 = s' at hcall ⊢
  cases hcall with
  | @fault cause gap cs text rest hs hg hr =>
    obtain rfl : cause = .unexpected c := hc
    have hpos := offset_positionAt_eq hs hfit s.settings
    have hnext := stands_fault s (front ++ gap) hr
    cases hr
    have hsplits := hnext.splits
    rw [← hpos] at hsplits
    exact hsplits

/-- A call answers nothing exactly if its position lies inside a character, and then passes a byte
of it. From a boundary a call leads to a boundary, or else fails at a character of several bytes,
which the calls behind it pass. The calls of a run all answer. -/
theorem scan_insideCharacter_iff (h : s.Reachable)
    (hfit : s.source.utf8ByteSize + 1 < UInt32.size) :
    (s.scan.1 = .insideCharacter ↔ Text.Inside s.source.toList s.offset) ∧
      (Text.Inside s.source.toList s.offset ↔ ¬ s.OnBoundary) ∧
      (¬ s.OnBoundary → s.scan.2.offset = s.offset + 1 ∧
        s.scan.2.cursor.line = s.cursor.line) ∧
      (s.OnBoundary → (∀ f c, s.scan.1 = .fault f → f.cause = .unexpected c → c.utf8Size = 1) →
        s.scan.2.OnBoundary) ∧
      (∀ f c, s.scan.1 = .fault f → f.cause = .unexpected c → 2 ≤ c.utf8Size →
        s.scan.2.Splits c f.position.offset.toNat) ∧
      ∀ settings source, (Run.of settings source).broken = false ∧
        ∃ n, .insideCharacter ∉ (scans n (start settings source)).1 ∧
          (scans n (start settings source)).1 =
            (Run.of settings source).tokens.map .token ++
              (Run.of settings source).fault.toList.map .fault := by
  obtain ⟨front, ahead, pending, hs⟩ := h.stands
  refine ⟨?_, ?_, ?_, ?_, ?_, ?_⟩
  · rw [hs.answer_iff, hs.inside_iff]
  · rw [hs.inside_iff, hs.onBoundary_iff]
  · intro hb
    rw [hs.onBoundary_iff] at hb
    obtain ⟨n, rfl⟩ := Nat.exists_eq_succ_of_ne_zero hb
    rw [hs.scan_inside]
    exact ⟨rfl, rfl⟩
  · intro hb hsmall
    obtain rfl := hs.onBoundary_iff.1 hb
    rcases hs.scan_boundary with ⟨front', ahead', hs'⟩ | ⟨f, c, front', ahead', hf, hc, hs'⟩
    · exact hs'.onBoundary_iff.2 rfl
    · exact hs'.onBoundary_iff.2 (by rw [hsmall f c hf hc])
  · intro f c hf hc _
    exact hs.splits_of_fault hfit hf hc
  · intro settings source
    obtain ⟨n, hn⟩ := scans_start settings source
    exact ⟨Run.broken_of settings source, n, by simp [hn], hn⟩

theorem scan_insideCharacter_iff_snowman :
    let s := (start (.named none true) "\"é\"☃ x").scan.2
    let f : Fault := ⟨.unexpected '☃', 1, ⟨4, "shell"⟩⟩
    s.Reachable ∧ s.source.utf8ByteSize + 1 < UInt32.size ∧ s.scan.1 = .fault f ∧
      s.scan.2.Splits '☃' 4 ∧
        (s.scan.2.scan.1 = .insideCharacter ↔
          Text.Inside s.scan.2.source.toList s.scan.2.offset) := by
  intro s f
  have hs : s.Reachable := .scan (.start _ _)
  have hfit : s.source.utf8ByteSize + 1 < UInt32.size := by decide +kernel
  have hf : s.scan.1 = .fault f := by decide +kernel
  obtain ⟨-, -, -, -, hsplits, -⟩ := scan_insideCharacter_iff hs hfit
  exact ⟨hs, hfit, hf, hsplits f '☃' hf rfl (by decide),
    (scan_insideCharacter_iff hs.scan (by decide +kernel)).1⟩

end Session

end ScriptScan
