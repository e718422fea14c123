import ScriptScan.Scan

/-!
# Runs

A run scans from a cursor until it has found the end of the input or a fault. It is the run from
its first step on behind that step (`run_of_token`). `tokenize` runs over a whole source.
-/

namespace ScriptScan

/-- What a run found: its tokens in order, the fault that ended it if one did, whether it broke off
instead, the cursor it leaves and all that it reported. -/
structure Run where
  tokens : List Token
  fault : Option Fault
  broken : Bool
  cursor : Cursor
  events : List Event

/-- Goes on with a run of which some tokens and events are known, the latest first. -/
def Run.resume (s : Settings) (tokens : List Token) (events : List Event) (c : Cursor) : Run :=
  let step := c.scan s
  let events := step.events.reverse ++ events
  match _h : step.outcome with
  | .insideCharacter => ⟨tokens.reverse, none, true, step.cursor, events.reverse⟩
  | .fault f => ⟨tokens.reverse, some f, false, step.cursor, events.reverse⟩
  | .token t =>
    if _ht : t.isEnd then ⟨(t :: tokens).reverse, none, false, step.cursor, events.reverse⟩
    else resume s (t :: tokens) events step.cursor
termination_by c.left
decreasing_by exact Cursor.left_scan_lt _h (by simpa using _ht)

def Cursor.run (c : Cursor) (s : Settings) : Run := Run.resume s [] [] c

/-- A run behind one that found `tokens` and reported `events`. -/
def Run.behind (tokens : List Token) (events : List Event) (r : Run) : Run :=
  ⟨tokens ++ r.tokens, r.fault, r.broken, r.cursor, events ++ r.events⟩

namespace Cursor

theorem resume_of_inside {c : Cursor} {s : Settings} (h : (c.scan s).outcome = .insideCharacter)
    (tokens : List Token) (events : List Event) :
    Run.resume s tokens events c =
      ⟨tokens.reverse, none, true, (c.scan s).cursor, events.reverse ++ (c.scan s).events⟩ := by
  rw [Run.resume]
  split <;> rename_i h' <;> rw [h] at h' <;> cases h'
  simp

theorem resume_of_fault {c : Cursor} {s : Settings} {f : Fault}
    (h : (c.scan s).outcome = .fault f) (tokens : List Token) (events : List Event) :
    Run.resume s tokens events c =
      ⟨tokens.reverse, some f, false, (c.scan s).cursor,
        events.reverse ++ (c.scan s).events⟩ := by
  rw [Run.resume]
  split <;> rename_i h' <;> rw [h] at h' <;> cases h'
  simp

theorem resume_of_end {c : Cursor} {s : Settings} {t : Token}
    (h : (c.scan s).outcome = .token t) (ht : t.isEnd = true) (tokens : List Token)
    (events : List Event) :
    Run.resume s tokens events c =
      ⟨tokens.reverse ++ [t], none, false, (c.scan s).cursor,
        events.reverse ++ (c.scan s).events⟩ := by
  rw [Run.resume]
  split <;> rename_i h' <;> rw [h] at h' <;> cases h'
  simp [ht]

theorem resume_of_token {c : Cursor} {s : Settings} {t : Token}
    (h : (c.scan s).outcome = .token t) (ht : t.isEnd = false) (tokens : List Token)
    (events : List Event) :
    Run.resume s tokens events c =
      Run.resume s (t :: tokens) ((c.scan s).events.reverse ++ events) (c.scan s).cursor := by
  rw [Run.resume]
  split <;> rename_i h' <;> rw [h] at h' <;> cases h'
  simp [ht]

theorem resume_eq_behind (s : Settings) (tokens : List Token) (events : List Event) (c : Cursor) :
    Run.resume s tokens events c = (c.run s).behind tokens.reverse events.reverse := by
  rcases h : (c.scan s).outcome with t | f | _
  · rcases ht : t.isEnd with _ | _
    · have := left_scan_lt h ht
      rw [run, resume_of_token h ht, resume_of_token h ht, resume_eq_behind s (t :: tokens),
        resume_eq_behind s [t]]
      simp [Run.behind]
    · rw [run, resume_of_end h ht, resume_of_end h ht]
      simp [Run.behind]
  · rw [run, resume_of_fault h, resume_of_fault h]
    simp [Run.behind]
  · rw [run, resume_of_inside h, resume_of_inside h]
    simp [Run.behind]
termination_by c.left

theorem run_of_inside {c : Cursor} {s : Settings} (h : (c.scan s).outcome = .insideCharacter) :
    c.run s = ⟨[], none, true, (c.scan s).cursor, (c.scan s).events⟩ :=
  resume_of_inside h [] []

theorem run_of_fault {c : Cursor} {s : Settings} {f : Fault} (h : (c.scan s).outcome = .fault f) :
    c.run s = ⟨[], some f, false, (c.scan s).cursor, (c.scan s).events⟩ :=
  resume_of_fault h [] []

theorem run_of_end {c : Cursor} {s : Settings} {t : Token} (h : (c.scan s).outcome = .token t)
    (ht : t.isEnd = true) : c.run s = ⟨[t], none, false, (c.scan s).cursor, (c.scan s).events⟩ :=
  resume_of_end h ht [] []

theorem run_of_token {c : Cursor} {s : Settings} {t : Token} (h : (c.scan s).outcome = .token t)
    (ht : t.isEnd = false) :
    c.run s = ((c.scan s).cursor.run s).behind [t] (c.scan s).events := by
  rw [run, resume_of_token h ht, resume_eq_behind]
  simp

end Cursor

namespace Run

def of (s : Settings) (source : String) : Run := (Cursor.start source).run s

/-- The outcomes of the scans of a run, one after the other. -/
def outcomes (r : Run) : List Outcome :=
  r.tokens.map .token ++ r.fault.toList.map .fault ++
    if r.broken then [.insideCharacter] else []

/-- All that is reported about a source, from the first word on. -/
def journal (s : Settings) (source : String) : List Event :=
  .started s.file source.utf8ByteSize :: (of s source).events

end Run

/-- The tokens of a source, which end with the end of the input, or the first fault in it. No run
over a source breaks off. -/
def tokenize (source : String) (file : Option String) : Except Fault (List Token) :=
  let run := Run.of (.named file false) source
  match run.fault with
  | some fault => .error fault
  | none => .ok run.tokens

end ScriptScan
