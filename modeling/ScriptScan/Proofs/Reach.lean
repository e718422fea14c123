import ScriptScan.Session
import ScriptScan.Proofs.Place

/-!
# Reachable sessions

Wherever the calls of a session lead, its cursor stands behind a front part of the source, or in
front of the last bytes of the character at the end of it (`Session.Reachable.stands`). Where there
are such bytes the position lies inside a character, and nowhere else (`Session.Stands.ahead?_eq`).
All that one call can do from there is told by `Session.Call`: what every call keeps is shown by its
three cases (`Session.Stands.call`).
-/

namespace ScriptScan

open Trivia (Gap)
open Reading (Reads)

/-- How many bytes of what a fault was found at are still to be passed. -/
def Cause.pending : Cause → Nat
  | unexpected c => c.utf8Size - 1
  | _ => 0

namespace Session

inductive Reachable : Session → Prop
  | start (settings : Settings) (source : String) : Reachable (start settings source)
  | restart {s : Session} (h : Reachable s) (source : String) : Reachable (s.restart source)
  | scan {s : Session} (h : Reachable s) : Reachable s.scan.2

/-- The text from the position on, none if the position lies inside a character. -/
def ahead? (s : Session) : Option (List Char) := Text.drop? s.source.toList s.offset

/-- All of `front` is passed but its last bytes, of which `pending` are left; they belong to the
character at the end of it. -/
structure Stands (s : Session) (front ahead : List Char) (pending : Nat) : Prop where
  source : s.source.toList = front ++ ahead
  offset : s.offset + pending = Text.width front
  line : s.cursor.line = lineAt front
  inside : pending = 0 ∨ ∃ init c, front = init ++ [c] ∧ pending < c.utf8Size

variable {s : Session} {front ahead : List Char} {pending : Nat}

theorem Stands.cursor_eq (h : s.Stands front ahead 0) : s.cursor = .behind front ahead := by
  rw [Cursor.behind, ← h.source, String.ofList_toList, ← h.offset, ← h.line]
  rfl

theorem stands_behind (s : Session) (front ahead : List Char) :
    { s with cursor := .behind front ahead }.Stands front ahead 0 :=
  ⟨String.toList_ofList, rfl, rfl, Or.inl rfl⟩

theorem stands_fault (s : Session) (front : List Char) {cs text rest : List Char} {cause : Cause}
    (hr : Reads cs ⟨.trouble cause, text, rest⟩) :
    { s with cursor := Reading.stop ⟨.trouble cause, text, rest⟩ front }.Stands (front ++ text) rest
      cause.pending := by
  cases hr with
  | openString | openComment | tooLarge => exact stands_behind s _ _
  | @unexpected c rest _ hs =>
    have hc : '\n' ∉ [c] := by
      rintro hmem
      rw [← List.mem_singleton.1 hmem] at hs
      cases hs
    have hsize := c.utf8Size_pos
    refine ⟨?_, ?_, (lineAt_append front hc).symm, Or.inr ⟨front, c, rfl, ?_⟩⟩
    · rw [List.append_assoc]
      exact String.toList_ofList
    · show Text.width front + 1 + (c.utf8Size - 1) = Text.width (front ++ [c])
      rw [Text.width_append, Text.width_cons, Text.width_nil]
      omega
    · rw [Cause.pending]
      omega

/-- What a call can do from behind `front`: pass a byte of a character that is still to be passed,
find a token over some text ahead, or fail at a trouble behind a gap. -/
inductive Call (s : Session) (front : List Char) : Nat → Outcome → Session → Prop
  | inside {n : Nat} :
    Call s front (n + 1) .insideCharacter { s with cursor := s.cursor.advance 1 }
  | token {kind : Kind} {value : Option Value} {lead text rest : List Char}
    (hs : s.source.toList = front ++ lead ++ text ++ rest) :
    Call s front 0 (.token { s.settings.tokenAt kind (front ++ lead) text with value })
      { s with cursor := .behind (front ++ lead ++ text) rest }
  | fault {cause : Cause} {gap cs text rest : List Char} (hs : s.source.toList = front ++ gap ++ cs)
    (hg : Gap gap cs) (hr : Reads cs ⟨.trouble cause, text, rest⟩) :
    Call s front 0 (.fault (s.settings.faultAt cause (front ++ gap)))
      { s with cursor := Reading.stop ⟨.trouble cause, text, rest⟩ (front ++ gap) }

/-- Of a character whose last bytes are ahead the first is passed. -/
theorem Stands.exists_inside {n : Nat} (h : s.Stands front ahead (n + 1)) :
    ∃ init c, front = init ++ [c] ∧ s.source.toList = init ++ c :: ahead ∧
      s.offset = Text.width init + (c.utf8Size - (n + 1)) ∧ n + 1 < c.utf8Size := by
  obtain ⟨init, c, rfl, hlt⟩ := h.inside.resolve_left (Nat.succ_ne_zero n)
  have hsource := h.source
  have hoff := h.offset
  rw [List.append_assoc, List.singleton_append] at hsource
  simp only [Text.width_append, Text.width_cons, Text.width_nil] at hoff
  exact ⟨init, c, rfl, hsource, by omega, hlt⟩

theorem Stands.scan_inside {n : Nat} (h : s.Stands front ahead (n + 1)) :
    s.scan = (.insideCharacter, { s with cursor := s.cursor.advance 1 }) := by
  obtain ⟨init, c, -, hsource, hoff, hlt⟩ := h.exists_inside
  have hscan := Cursor.scan_inside s.settings hsource (k := c.utf8Size - (n + 1)) (by omega)
    (by omega) s.cursor.line
  rw [← hoff] at hscan
  rw [scan]
  exact congrArg (fun step : Step => (step.outcome, { s with cursor := step.cursor })) hscan

theorem Stands.call (h : s.Stands front ahead pending) :
    s.Call front pending s.scan.1 s.scan.2 := by
  cases pending with
  | zero =>
    obtain ⟨gap, cs, rfl, hg, hn⟩ := Trivia.exists_gap ahead
    have hs := h.source
    have hr := Reading.reads_of hn
    rw [← List.append_assoc] at hs
    rw [scan, h.cursor_eq]
    generalize Reading.of cs = r at hr
    cases hr with
    | lexeme kind text rest hform hstops =>
      rw [Cursor.scan_lexeme front s.settings hg hform hstops]
      exact .token (by rw [hs, List.append_assoc _ text])
    | openString hb =>
      rcases hl : s.settings.lenient with _ | _
      · rw [Cursor.scan_trouble front s.settings hg (.openString hb) (by simp [hl])]
        exact .fault hs hg (.openString hb)
      · rw [Cursor.scan_openString front s.settings hg hb hl]
        exact .token (by rw [hs, List.append_nil])
    | @openComment body hb =>
      rcases hl : s.settings.lenient with _ | _
      · rw [Cursor.scan_trouble front s.settings hg (.openComment hb) (by simp [hl])]
        exact .fault hs hg (.openComment hb)
      · have hcall := @Call.token s front .endOfInput none (gap ++ '/' :: '*' :: body) [] []
          (by rw [hs]; simp)
        rw [List.append_nil, ← List.append_assoc] at hcall
        rw [Cursor.scan_openComment front s.settings hg hb hl]
        exact hcall
    | tooLarge hne hd hstops hl =>
      rw [Cursor.scan_trouble front s.settings hg (.tooLarge hne hd hstops hl) (by simp)]
      exact .fault hs hg (.tooLarge hne hd hstops hl)
    | unexpected hb hc =>
      rw [Cursor.scan_trouble front s.settings hg (.unexpected hb hc) (by simp)]
      exact .fault hs hg (.unexpected hb hc)
  | succ n =>
    rw [h.scan_inside]
    exact .inside

theorem Stands.advance {n : Nat} (h : s.Stands front ahead (n + 1)) :
    { s with cursor := s.cursor.advance 1 }.Stands front ahead n := by
  obtain ⟨init, c, hc, hlt⟩ := h.inside.resolve_left (Nat.succ_ne_zero n)
  refine ⟨h.source, ?_, h.line, Or.inr ⟨init, c, hc, Nat.lt_of_succ_lt hlt⟩⟩
  rw [← h.offset, Nat.add_comm n, ← Nat.add_assoc]
  rfl

theorem Stands.scan (h : s.Stands front ahead pending) :
    ∃ front' ahead' pending', s.scan.2.Stands front' ahead' pending' := by
  have hcall := h.call
  generalize s.scan.1 = o at hcall
  generalize s.scan.2 = s' at hcall ⊢
  cases hcall with
  | inside => exact ⟨_, _, _, h.advance⟩
  | token => exact ⟨_, _, _, stands_behind s _ _⟩
  | fault _ _ hr => exact ⟨_, _, _, stands_fault s _ hr⟩

theorem stands_start (settings : Settings) (source : String) :
    (start settings source).Stands [] source.toList 0 :=
  ⟨rfl, rfl, rfl, Or.inl rfl⟩

theorem Reachable.stands (h : s.Reachable) :
    ∃ front ahead pending, s.Stands front ahead pending := by
  induction h with
  | start settings source => exact ⟨_, _, _, stands_start settings source⟩
  | restart _ source => exact ⟨_, _, _, stands_start _ source⟩
  | scan _ ih =>
    obtain ⟨front, ahead, pending, hs⟩ := ih
    exact hs.scan

/-- The position lies inside a character exactly while bytes of one are still to be passed. -/
theorem Stands.ahead?_eq (h : s.Stands front ahead pending) :
    s.ahead? = if pending = 0 then some ahead else none := by
  cases pending with
  | zero => rw [ahead?, h.source, ← Nat.add_zero s.offset, h.offset, Text.drop?_append, if_pos rfl]
  | succ n =>
    obtain ⟨init, c, -, hsource, hoff, hlt⟩ := h.exists_inside
    rw [ahead?, hsource, hoff, Text.drop?_inside _ _ _ (by omega) (by omega),
      if_neg (Nat.succ_ne_zero n)]

/-- A call outside characters passes the longest gap and answers with what is read behind it. -/
theorem Reachable.scan_eq (h : s.Reachable) (ha : s.ahead? = some ahead) :
    ∃ front gap r, s.source.toList = front ++ ahead ∧ s.offset = Text.width front ∧
      ahead = gap ++ (r.text ++ r.rest) ∧ Gap gap (r.text ++ r.rest) ∧
        Reads (r.text ++ r.rest) r ∧
          s.scan.1 = (Step.ofReading s.settings r (.behind (front ++ gap) (r.text ++ r.rest))
            (r.stop (front ++ gap))).outcome := by
  obtain ⟨front, ahead', pending, hst⟩ := h.stands
  rw [hst.ahead?_eq] at ha
  split at ha
  · rename_i hp
    subst hp
    obtain rfl : ahead' = ahead := Option.some.inj ha
    obtain ⟨gap, r, hahead, hg, hr⟩ := Cursor.exists_reads ahead'
    refine ⟨front, gap, r, hst.source, hst.offset, hahead, hg, hr, ?_⟩
    rw [Session.scan, hst.cursor_eq, hahead, Cursor.scan_behind front s.settings hg hr]
  · cases ha

end Session

end ScriptScan
