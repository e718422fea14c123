import ScriptScan.Proofs.Calls
import ScriptScan.Proofs.Tracking

/-!
# Shifts

A scan shows of the text in front of it only how many bytes and lines it takes. With more text in
front it finds the same, moved by the bytes and lines of that (`Cursor.scan_shift`), and so do a run
(`Cursor.run_shift`) and the calls of a session (`Session.Stands.scans_shift`). Hence a session goes
on from a character boundary as a fresh one on the text ahead. Offsets and lines are words of 32
bits, but what is told of a source that fits these is moved without being cut
(`Session.shiftExact_of_mem_scans`).
-/

namespace ScriptScan

/-! ## What is moved -/

def Position.shift (bytes : Nat) (p : Position) : Position :=
  { p with offset := p.offset + UInt32.ofNat bytes }

def Token.shift (bytes lines : Nat) (t : Token) : Token :=
  { t with
    startLine := t.startLine + UInt32.ofNat lines
    endLine := t.endLine + UInt32.ofNat lines
    span := ⟨t.span.start.shift bytes, t.span.stop.shift bytes⟩ }

def Fault.shift (bytes lines : Nat) (f : Fault) : Fault :=
  { f with
    line := f.line + UInt32.ofNat lines
    position := f.position.shift bytes }

def Event.shift (bytes lines : Nat) : Event → Event
  | .started file size => .started file size
  | .scanned t => .scanned (t.shift bytes lines)
  | .stringCut line => .stringCut (line + UInt32.ofNat lines)
  | .commentCut line => .commentCut (line + UInt32.ofNat lines)
  | .failed f offset => .failed (f.shift bytes lines) (offset + bytes)

def Outcome.shift (bytes lines : Nat) : Outcome → Outcome
  | .token t => .token (t.shift bytes lines)
  | .fault f => .fault (f.shift bytes lines)
  | .insideCharacter => .insideCharacter

/-- The cursor at the same place of its source, in front of which more stands. -/
def Cursor.shift (pre : List Char) (c : Cursor) : Cursor :=
  ⟨String.ofList pre ++ c.source, c.offset + Text.width pre,
    c.line + UInt32.ofNat (pre.count '\n')⟩

def Step.shift (pre : List Char) (step : Step) : Step :=
  ⟨step.outcome.shift (Text.width pre) (pre.count '\n'), step.cursor.shift pre,
    step.events.map (Event.shift (Text.width pre) (pre.count '\n'))⟩

def Run.shift (pre : List Char) (r : Run) : Run :=
  ⟨r.tokens.map (Token.shift (Text.width pre) (pre.count '\n')),
    r.fault.map (Fault.shift (Text.width pre) (pre.count '\n')), r.broken, r.cursor.shift pre,
    r.events.map (Event.shift (Text.width pre) (pre.count '\n'))⟩

def Session.shift (pre : List Char) (s : Session) : Session :=
  { s with cursor := s.cursor.shift pre }

/-! ## Scans and runs -/

theorem lineAt_shift (pre front : List Char) :
    lineAt front + UInt32.ofNat (pre.count '\n') = lineAt (pre ++ front) := by
  simp only [lineAt, List.count_append, ← UInt32.ofNat_add, Nat.add_assoc,
    Nat.add_comm (front.count '\n')]

section Scan

variable (pre : List Char)

theorem Cursor.shift_behind (front ahead : List Char) :
    (behind front ahead).shift pre = behind (pre ++ front) ahead := by
  have hsource : String.ofList pre ++ String.ofList (front ++ ahead) =
      String.ofList (pre ++ front ++ ahead) := by
    rw [← String.ofList_append, List.append_assoc]
  have hoff : Text.width front + Text.width pre = Text.width (pre ++ front) := by
    rw [Text.width_append, Nat.add_comm]
  rw [shift, behind, behind, hsource, hoff, lineAt_shift]

theorem Reading.stop_shift (r : Reading) (front : List Char) :
    (r.stop front).shift pre = r.stop (pre ++ front) := by
  unfold stop
  split
  · rw [← Cursor.shift_behind]
    simp only [Cursor.shift, Cursor.advance, Nat.add_right_comm]
  · rw [Cursor.shift_behind, List.append_assoc]

namespace Settings

variable (s : Settings)

theorem position_shift (c : Cursor) :
    s.position (c.shift pre) = (s.position c).shift (Text.width pre) := by
  simp only [position, Cursor.shift, Position.shift, UInt32.ofNat_add]

theorem token_shift (kind : Kind) (value : Option Value) (lexeme : String) (start stop : Cursor) :
    s.token kind value lexeme (start.shift pre) (stop.shift pre) =
      (s.token kind value lexeme start stop).shift (Text.width pre) (pre.count '\n') := by
  simp only [token, position_shift]
  rfl

theorem fault_shift (cause : Cause) (c : Cursor) :
    s.fault cause (c.shift pre) =
      (s.fault cause c).shift (Text.width pre) (pre.count '\n') := by
  simp only [fault, position_shift]
  rfl

end Settings

theorem Step.ofReading_shift (s : Settings) (r : Reading) (start stop : Cursor) :
    ofReading s r (start.shift pre) (stop.shift pre) = (ofReading s r start stop).shift pre := by
  unfold ofReading
  split
  · rw [Settings.token_shift]
    rfl
  · split
    · simp only [Settings.token_shift]
      rfl
    · rw [Settings.token_shift]
      rfl
    · rw [Settings.fault_shift]
      rfl

namespace Cursor

theorem scan_shift (front ahead : List Char) (s : Settings) :
    (behind (pre ++ front) ahead).scan s = ((behind front ahead).scan s).shift pre := by
  obtain ⟨gap, r, rfl, hg, hr⟩ := exists_reads ahead
  rw [scan_behind _ s hg hr, scan_behind _ s hg hr, ← Step.ofReading_shift, shift_behind,
    Reading.stop_shift, List.append_assoc]

theorem run_shift (front ahead : List Char) (s : Settings) :
    (behind (pre ++ front) ahead).run s = ((behind front ahead).run s).shift pre := by
  have hscan := scan_shift pre front ahead s
  have houtcome := congrArg Step.outcome hscan
  rcases h : ((behind front ahead).scan s).outcome with t | f | _ <;>
    simp only [Step.shift, h, Outcome.shift] at houtcome
  · -- a moved token keeps its kind, so both runs end at the same step
    rcases ht : t.isEnd with _ | _
    · obtain ⟨front', ahead', hcursor, -⟩ := exists_cursor_scan h
      have hlt := left_scan_lt h ht
      have ih := run_shift front' ahead' s
      have hnext :
          ((behind (pre ++ front) ahead).scan s).cursor = behind (pre ++ front') ahead' := by
        rw [hscan, Step.shift, hcursor, shift_behind]
      rw [run_of_token h ht, run_of_token houtcome ht, hcursor, hnext, ih, hscan]
      simp [Run.behind, Run.shift, Step.shift]
    · rw [run_of_end h ht, run_of_end houtcome ht, hscan]
      rfl
  · rw [run_of_fault h, run_of_fault houtcome, hscan]
    rfl
  · exact absurd h (outcome_scan_ne front ahead s)
termination_by (behind front ahead).left
decreasing_by rwa [← hcursor]

end Cursor

end Scan

/-! ## Moved and not cut -/

/-- Moved by `bytes` and `lines`, the token tells just as much larger offsets and lines. -/
structure Token.ShiftExact (bytes lines : Nat) (t : Token) : Prop where
  startsAt : (t.shift bytes lines).startsAt = t.startsAt + bytes
  stopsAt : (t.shift bytes lines).stopsAt = t.stopsAt + bytes
  startLine : (t.shift bytes lines).startLine.toNat = t.startLine.toNat + lines
  endLine : (t.shift bytes lines).endLine.toNat = t.endLine.toNat + lines

structure Fault.ShiftExact (bytes lines : Nat) (f : Fault) : Prop where
  offset : (f.shift bytes lines).position.offset.toNat = f.position.offset.toNat + bytes
  line : (f.shift bytes lines).line.toNat = f.line.toNat + lines

def Outcome.ShiftExact (bytes lines : Nat) : Outcome → Prop
  | .token t => t.ShiftExact bytes lines
  | .fault f => f.ShiftExact bytes lines
  | .insideCharacter => True

theorem toNat_add_ofNat {a : UInt32} {n : Nat} (h : a.toNat + n < UInt32.size) :
    (a + UInt32.ofNat n).toNat = a.toNat + n := by
  have hn : (UInt32.ofNat n).toNat = n := UInt32.toNat_ofNat_of_lt' (by omega)
  rw [UInt32.toNat_add, hn]
  exact Nat.mod_eq_of_lt h

section Exact

variable {source : String} {bytes lines : Nat} (hlines : lines ≤ bytes)
  (hfit : bytes + source.utf8ByteSize + 1 < UInt32.size)
include hlines hfit

theorem Token.Tracked.shiftExact {t : Token} (h : t.Tracked source) :
    t.ShiftExact bytes lines := by
  obtain ⟨hstart, hend, hspans, hle⟩ := h
  have hstart' := Text.lineFeeds_le source t.startsAt
  have hend' := Text.lineFeeds_le source t.stopsAt
  refine ⟨?_, ?_, ?_, ?_⟩ <;> refine toNat_add_ofNat ?_
  · show t.startsAt + bytes < _
    omega
  · show t.stopsAt + bytes < _
    omega
  · omega
  · omega

theorem Fault.Tracked.shiftExact {f : Fault} (h : f.Tracked source) :
    f.ShiftExact bytes lines := by
  obtain ⟨hline, hle⟩ := h
  have hline' := Text.lineFeeds_le source f.position.offset.toNat
  refine ⟨?_, ?_⟩ <;> refine toNat_add_ofNat ?_ <;> omega

theorem Outcome.Tracked.shiftExact {o : Outcome} (h : o.Tracked source) :
    o.ShiftExact bytes lines := by
  cases o with
  | token t => exact Token.Tracked.shiftExact hlines hfit h
  | fault f => exact Fault.Tracked.shiftExact hlines hfit h
  | insideCharacter => exact trivial

/-- What the calls of a session answer is moved without being cut, if all of a source with `bytes`
more in front of it fits. -/
theorem Session.shiftExact_of_mem_scans {s : Session} (h : s.Reachable) (hs : s.source = source)
    {n : Nat} {o : Outcome} (ho : o ∈ (Session.scans n s).1) : o.ShiftExact bytes lines := by
  obtain ⟨u, hu, hsource, rfl⟩ := mem_scans h ho
  refine Outcome.Tracked.shiftExact hlines hfit ?_
  rw [← hs, ← hsource]
  refine hu.tracked ?_
  rw [hsource, hs]
  omega

end Exact

/-! ## Sessions -/

namespace Session

variable {s : Session} {front ahead : List Char} {pending : Nat}

theorem Stands.shift (h : s.Stands front ahead pending) (pre : List Char) :
    (s.shift pre).Stands (pre ++ front) ahead pending := by
  refine ⟨?_, ?_, ?_, ?_⟩
  · show (String.ofList pre ++ s.source).toList = _
    rw [String.toList_append, String.toList_ofList, h.source, List.append_assoc]
  · show s.offset + Text.width pre + pending = _
    rw [Text.width_append, ← h.offset]
    omega
  · rw [← lineAt_shift, ← h.line]
    rfl
  · rcases h.inside with hp | ⟨init, c, rfl, hlt⟩
    · exact Or.inl hp
    · exact Or.inr ⟨pre ++ init, c, (List.append_assoc _ _ _).symm, hlt⟩

theorem Stands.scan_shift (h : s.Stands front ahead pending) (pre : List Char) :
    (s.shift pre).scan =
      (s.scan.1.shift (Text.width pre) (pre.count '\n'), s.scan.2.shift pre) := by
  cases pending with
  | zero =>
    have hcursor : (s.shift pre).cursor = .behind (pre ++ front) ahead := (h.shift pre).cursor_eq
    have hscan := Cursor.scan_shift pre front ahead s.settings
    rw [← hcursor, ← h.cursor_eq] at hscan
    exact congrArg (fun step : Step => (step.outcome, { s with cursor := step.cursor })) hscan
  | succ n =>
    have hadvance : (s.cursor.advance 1).shift pre = (s.cursor.shift pre).advance 1 := by
      simp only [Cursor.shift, Cursor.advance, Nat.add_right_comm]
    rw [(h.shift pre).scan_inside, h.scan_inside, Session.shift, Session.shift, hadvance]
    rfl

theorem Stands.scans_shift (h : s.Stands front ahead pending) (pre : List Char) (n : Nat) :
    scans n (s.shift pre) =
      ((scans n s).1.map (Outcome.shift (Text.width pre) (pre.count '\n')),
        (scans n s).2.shift pre) := by
  induction n generalizing s front ahead pending with
  | zero => rfl
  | succ n ih =>
    obtain ⟨front', ahead', pending', hnext⟩ := h.scan
    simp only [scans_succ, h.scan_shift, ih hnext, List.map_cons]

/-- At a character boundary a session is a fresh one on the text ahead, moved. -/
theorem Stands.eq_shift_start (h : s.Stands front ahead 0) :
    s = (start s.settings (String.ofList ahead)).shift front := by
  have hcursor : s.cursor = (Cursor.start (String.ofList ahead)).shift front := by
    rw [h.cursor_eq, Cursor.start_eq, Cursor.shift_behind, String.toList_ofList, List.append_nil]
  rw [Session.shift, start, ← hcursor]

theorem Reachable.stands_of_boundary (h : s.Reachable) {front rest : String}
    (hs : s.source = front ++ rest) (hoff : s.offset = front.utf8ByteSize) :
    s.Stands front.toList rest.toList 0 := by
  obtain ⟨front', ahead, pending, hst⟩ := h.stands
  have hsource : s.source.toList = front.toList ++ rest.toList := by rw [hs, String.toList_append]
  have hahead := hst.ahead?_eq
  rw [ahead?, hsource, hoff, ← Text.width_toList, Text.drop?_append] at hahead
  split at hahead
  · rename_i hp
    subst hp
    obtain rfl : rest.toList = ahead := Option.some.inj hahead
    obtain rfl : front' = front.toList := List.append_cancel_right (hst.source.symm.trans hsource)
    exact hst
  · cases hahead

/-- From a character boundary on the calls of a session, whatever they answer, answer as those of a
fresh one on the rest of the source: the lines and offsets are larger by those in front of the
boundary, and all else is equal. -/
theorem scans_eq_scans_start {s : Session} (h : s.Reachable)
    (hfit : s.source.utf8ByteSize + 1 < UInt32.size) {front rest : String}
    (hs : s.source = front ++ rest) (hoff : s.offset = front.utf8ByteSize) (n : Nat) :
    (scans n s).1 = (scans n (start s.settings rest)).1.map
        (Outcome.shift s.offset (s.cursor.line.toNat - 1)) ∧
      ∀ o ∈ (scans n (start s.settings rest)).1,
        o.ShiftExact s.offset (s.cursor.line.toNat - 1) := by
  have hst := h.stands_of_boundary hs hoff
  have hwidth := width_add_width hst.source
  have hfront : s.offset = Text.width front.toList := hst.offset
  have hlines : s.cursor.line.toNat - 1 = front.toList.count '\n' := by
    rw [hst.line, toNat_lineAt (by omega), Nat.add_sub_cancel_left]
  have hle : front.toList.count '\n' ≤ Text.width front.toList :=
    Nat.le_trans List.count_le_length (Text.length_le_width _)
  rw [hfront, hlines]
  refine ⟨?_, fun o ho => ?_⟩
  · have hstart := hst.eq_shift_start
    rw [String.ofList_toList] at hstart
    conv => lhs; rw [hstart, (stands_start s.settings rest).scans_shift]
  · have hrest : Text.width front.toList + rest.utf8ByteSize + 1 < UInt32.size := by
      rwa [← Text.width_toList, hwidth]
    exact shiftExact_of_mem_scans hle hrest (.start s.settings rest) rfl ho

theorem scans_eq_scans_start_snowman :
    let front := "\"é\n\"☃"
    let s := (scans 4 (start (.named none true) (front ++ " if\n/*"))).2
    s.Reachable ∧ s.source.utf8ByteSize + 1 < UInt32.size ∧ s.source = front ++ " if\n/*" ∧
      s.offset = front.utf8ByteSize ∧
      (scans 1 (start s.settings " if\n/*")).1 =
        [.token ⟨.keyword .ifKw, "if", none, 1, 1, ⟨⟨1, "shell"⟩, ⟨3, "shell"⟩⟩⟩] ∧
      (scans 1 s).1 =
        [.token ⟨.keyword .ifKw, "if", none, 2, 2, ⟨⟨9, "shell"⟩, ⟨11, "shell"⟩⟩⟩] := by
  intro front s
  have hs : s.Reachable := (Reachable.start _ _).scans 4
  have hfit : s.source.utf8ByteSize + 1 < UInt32.size := by decide +kernel
  have hsource : s.source = front ++ " if\n/*" := by decide +kernel
  have hoff : s.offset = front.utf8ByteSize := by decide +kernel
  have hfresh : (scans 1 (start s.settings " if\n/*")).1 =
      [.token ⟨.keyword .ifKw, "if", none, 1, 1, ⟨⟨1, "shell"⟩, ⟨3, "shell"⟩⟩⟩] := by decide +kernel
  refine ⟨hs, hfit, hsource, hoff, hfresh, ?_⟩
  rw [(scans_eq_scans_start hs hfit hsource hoff 1).1, hfresh]
  decide +kernel

end Session

end ScriptScan
