import ScriptScan.Proofs.Bytes
import ScriptScan.Proofs.Reach

/-!
# Lines and offsets of a session

Wherever the calls of a session lead, its line is one more than the line feeds among the bytes in
front of its position (`Session.Stands.line_eq`), and what a call answers tells the lines of the
offsets it tells (`Session.Reachable.tracked`). As long as one more than the bytes of the source is
a word of 32 bits, no line or offset is too large to be told.
-/

namespace ScriptScan

open Text (lineFeeds)

/-- The lines of a token are those at its offsets, between which its lexeme lies. -/
structure Token.Tracked (source : String) (t : Token) : Prop where
  startLine : t.startLine.toNat = 1 + lineFeeds source t.startsAt
  endLine : t.endLine.toNat = 1 + lineFeeds source t.stopsAt
  spans : t.startsAt + t.lexeme.utf8ByteSize = t.stopsAt
  stops_le : t.stopsAt ≤ source.utf8ByteSize

/-- The line of a fault is the one at its position. -/
structure Fault.Tracked (source : String) (f : Fault) : Prop where
  line : f.line.toNat = 1 + lineFeeds source f.position.offset.toNat
  position_le : f.position.offset.toNat ≤ source.utf8ByteSize

def Outcome.Tracked (source : String) : Outcome → Prop
  | .token t => t.Tracked source
  | .fault f => f.Tracked source
  | .insideCharacter => True

section Place

variable {source : String} {front rest : List Char} (h : source.toList = front ++ rest)
  (hfit : source.utf8ByteSize + 1 < UInt32.size)
include h

theorem width_add_width : Text.width front + Text.width rest = source.utf8ByteSize := by
  rw [← Text.width_append, ← h, Text.width_toList]

include hfit

theorem offset_positionAt_eq (s : Settings) :
    (s.positionAt front).offset.toNat = Text.width front := by
  have := width_add_width h
  exact s.offset_positionAt front (by omega)

theorem lineAt_eq_lineFeeds : (lineAt front).toNat = 1 + lineFeeds source (Text.width front) := by
  have := width_add_width h
  rw [Text.lineFeeds_of_append h, toNat_lineAt (by omega)]

theorem tracked_faultAt (s : Settings) (cause : Cause) :
    (s.faultAt cause front).Tracked source := by
  have hwidth := width_add_width h
  have hpos := offset_positionAt_eq h hfit s
  refine ⟨?_, ?_⟩ <;> simp only [Settings.faultAt, hpos]
  · exact lineAt_eq_lineFeeds h hfit
  · omega

end Place

theorem tracked_tokenAt {source : String} {front text rest : List Char}
    (h : source.toList = front ++ text ++ rest) (hfit : source.utf8ByteSize + 1 < UInt32.size)
    (s : Settings) (kind : Kind) (value : Option Value) :
    { s.tokenAt kind front text with value }.Tracked source := by
  have hfront : source.toList = front ++ (text ++ rest) := by rw [h, List.append_assoc]
  have hwidth := width_add_width h
  have hstart := offset_positionAt_eq hfront hfit s
  have hstop := offset_positionAt_eq h hfit s
  refine ⟨?_, ?_, ?_, ?_⟩ <;>
    simp only [Settings.tokenAt, Token.startsAt, Token.stopsAt, hstart, hstop]
  · exact lineAt_eq_lineFeeds hfront hfit
  · exact lineAt_eq_lineFeeds h hfit
  · rw [← Text.width_ofList, Text.width_append]
  · omega

namespace Session

variable {s : Session} {front ahead : List Char} {pending : Nat}

theorem Stands.offset_le (h : s.Stands front ahead pending) :
    s.offset ≤ s.source.utf8ByteSize := by
  have := h.offset
  have := width_add_width h.source
  omega

/-- Bytes that are still to be passed belong to a character which is no line feed, so they do not
count. -/
theorem Stands.line_eq (h : s.Stands front ahead pending)
    (hfit : s.source.utf8ByteSize + 1 < UInt32.size) :
    s.cursor.line.toNat = 1 + lineFeeds s.source s.offset := by
  rw [h.line]
  cases pending with
  | zero => rw [lineAt_eq_lineFeeds h.source hfit, ← h.offset, Nat.add_zero]
  | succ n =>
    obtain ⟨init, c, rfl, hsource, hoff, hlt⟩ := h.exists_inside
    have hc : c ≠ '\n' := by
      rintro rfl
      have : '\n'.utf8Size = 1 := rfl
      omega
    have hwidth := width_add_width h.source
    rw [hoff, Text.lineFeeds_of_inside hsource hc (by omega), toNat_lineAt (by omega),
      List.count_append, List.count_cons_of_ne hc]
    rfl

theorem Stands.tracked (h : s.Stands front ahead pending)
    (hfit : s.source.utf8ByteSize + 1 < UInt32.size) : s.scan.1.Tracked s.source := by
  have hcall := h.call
  generalize s.scan.1 = o at hcall ⊢
  generalize s.scan.2 = s' at hcall
  cases hcall with
  | inside => exact trivial
  | token hs => exact tracked_tokenAt hs hfit _ _ _
  | fault hs => exact tracked_faultAt hs hfit _ _

theorem Reachable.tracked (h : s.Reachable) (hfit : s.source.utf8ByteSize + 1 < UInt32.size) :
    s.scan.1.Tracked s.source := by
  obtain ⟨front, ahead, pending, hs⟩ := h.stands
  exact hs.tracked hfit

/-- Less is left to be passed of what a fault was found at than there is of it. -/
theorem pending_lt_width {cause : Cause} {cs text rest : List Char}
    (h : Reading.Reads cs ⟨.trouble cause, text, rest⟩) : cause.pending < Text.width text := by
  have hlen := Text.length_le_width text
  have hne := List.length_pos_iff.2 (Reading.text_ne_nil_of_trouble h)
  cases h with
  | openString | openComment | tooLarge => exact Nat.lt_of_lt_of_le hne hlen
  | @unexpected c =>
    have := c.utf8Size_pos
    rw [Text.width_cons, Text.width_nil, Cause.pending]
    omega

/-- What a call tells of lies between the positions before and after it. -/
theorem Stands.spans (h : s.Stands front ahead pending)
    (hfit : s.source.utf8ByteSize + 1 < UInt32.size) :
    (∀ t, s.scan.1 = .token t → s.offset ≤ t.startsAt ∧ t.stopsAt = s.scan.2.offset) ∧
      ∀ f, s.scan.1 = .fault f → s.offset ≤ f.position.offset.toNat ∧
        f.position.offset.toNat ≤ s.scan.2.offset := by
  have hcall := h.call
  have hoff := h.offset
  generalize s.scan.1 = o at hcall ⊢
  generalize s.scan.2 = s' at hcall ⊢
  cases hcall with
  | inside => simp
  | @token kind value lead text rest hs =>
    refine ⟨?_, by simp⟩
    rintro _ ⟨⟩
    have hnext := (stands_behind s (front ++ lead ++ text) rest).offset
    have hstop := offset_positionAt_eq hs hfit s.settings
    rw [List.append_assoc _ text] at hs
    have hstart := offset_positionAt_eq hs hfit s.settings
    simp only [Token.startsAt, Token.stopsAt, Settings.tokenAt, hstart, hstop, ← hnext,
      Nat.add_zero, and_true]
    rw [Text.width_append]
    omega
  | @fault cause gap cs text rest hs hg hr =>
    refine ⟨by simp, ?_⟩
    rintro _ ⟨⟩
    have hnext := (stands_fault s (front ++ gap) hr).offset
    have hlt := pending_lt_width hr
    have hpos := offset_positionAt_eq hs hfit s.settings
    rw [show (s.settings.faultAt cause (front ++ gap)).position = s.settings.positionAt _ from rfl,
      hpos]
    rw [Text.width_append] at hnext ⊢
    rw [Text.width_append] at hnext
    omega

/-- Wherever the calls of a session lead, its line is the one at its position, and what a call
answers tells the lines at the offsets that it tells, none of them cut to 32 bits. -/
theorem line_tracks_position {s : Session} (h : s.Reachable)
    (hfit : s.source.utf8ByteSize + 1 < UInt32.size) :
    s.offset ≤ s.source.utf8ByteSize ∧ (UInt32.ofNat s.offset).toNat = s.offset ∧
      s.cursor.line.toNat = 1 + lineFeeds s.source s.offset ∧
      (∀ t, s.scan.1 = .token t → t.Tracked s.source ∧
        s.offset ≤ t.startsAt ∧ t.stopsAt = s.scan.2.offset) ∧
      ∀ f, s.scan.1 = .fault f → f.Tracked s.source ∧
        s.offset ≤ f.position.offset.toNat ∧ f.position.offset.toNat ≤ s.scan.2.offset := by
  obtain ⟨front, ahead, pending, hs⟩ := h.stands
  have hle := hs.offset_le
  have htracked := hs.tracked hfit
  obtain ⟨htoken, hfault⟩ := hs.spans hfit
  refine ⟨hle, UInt32.toNat_ofNat_of_lt' (by omega), hs.line_eq hfit, ?_, ?_⟩
  · intro t ht
    rw [ht] at htracked
    exact ⟨htracked, htoken t ht⟩
  · intro f hf
    rw [hf] at htracked
    exact ⟨htracked, hfault f hf⟩

theorem line_tracks_position_inside :
    let s := (start (.named none false) "\"é\n\" ☃\n/*\n").scan.2.scan.2
    let u := s.scan.2.scan.2
    s.Reachable ∧ u.Reachable ∧ s.source.utf8ByteSize + 1 < UInt32.size ∧ s.offset = 7 ∧
      s.cursor.line.toNat = 1 + lineFeeds s.source 7 ∧
      u.scan.1 = .fault ⟨.openComment, 3, ⟨10, "shell"⟩⟩ ∧
      (⟨.openComment, 3, ⟨10, "shell"⟩⟩ : Fault).Tracked u.source := by
  intro s u
  have hs : s.Reachable := .scan (.scan (.start _ _))
  have hu : u.Reachable := .scan (.scan hs)
  have hoff : s.offset = 7 := by decide +kernel
  have hfault : u.scan.1 = .fault ⟨.openComment, 3, ⟨10, "shell"⟩⟩ := by decide +kernel
  have hfit : s.source.utf8ByteSize + 1 < UInt32.size := by decide +kernel
  obtain ⟨-, -, hline, -⟩ := line_tracks_position hs hfit
  obtain ⟨-, -, -, -, htracked⟩ := line_tracks_position hu (by decide +kernel)
  exact ⟨hs, hu, hfit, hoff, hoff ▸ hline, hfault, (htracked _ hfault).1⟩

end Session

end ScriptScan
