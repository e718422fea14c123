import ScriptScan.Proofs.Reach

/-!
# Calls in a row

A call leaves settings and source as they are, so all calls of a session answer about one source
(`Session.mem_scans`). A drain is the calls that it stands for (`Session.drain_eq_scans`); over a
fresh session these are the calls of a whole run, which never breaks off (`Session.scans_start`).
-/

namespace ScriptScan

namespace Session

variable {s : Session}

theorem same_scan (s : Session) : s.scan.2.settings = s.settings ∧ s.scan.2.source = s.source :=
  ⟨rfl, (Cursor.before_scan s.cursor s.settings).source⟩

theorem Reachable.scans (h : s.Reachable) (n : Nat) : (scans n s).2.Reachable := by
  induction n generalizing s with
  | zero => exact h
  | succ n ih =>
    rw [scans_succ]
    exact ih h.scan

/-- Each answer of some calls is the answer of one call, at a session on the same source. -/
theorem mem_scans (h : s.Reachable) {n : Nat} {o : Outcome} (ho : o ∈ (Session.scans n s).1) :
    ∃ u : Session, u.Reachable ∧ u.source = s.source ∧ u.scan.1 = o := by
  induction n generalizing s with
  | zero => simp at ho
  | succ n ih =>
    rw [scans_succ, List.mem_cons] at ho
    rcases ho with rfl | ho
    · exact ⟨s, h, rfl, rfl⟩
    · rw [← s.same_scan.2]
      exact ih h.scan ho

/-- The bytes of a character that are still to be passed take a call each. -/
theorem Stands.scans_inside {front ahead : List Char} {n : Nat} (h : s.Stands front ahead n) :
    Session.scans n s =
      (List.replicate n .insideCharacter, { s with cursor := .behind front ahead }) := by
  induction n generalizing s with
  | zero => rw [← h.cursor_eq]; rfl
  | succ n ih => rw [scans_succ, h.scan_inside, ih h.advance, List.replicate_succ]

/-- A drain is the calls up to the first that answers no token, or the end of the input. -/
theorem drain_eq_scans (s : Session) : s.drain = Session.scans s.drain.1.length s := by
  rcases h : (s.cursor.scan s.settings).outcome with t | f | _
  · have hscan : s.scan = (.token t, s.scan.2) := by rw [scan, h]
    rcases ht : t.isEnd with _ | _
    · have hdrain : s.drain = (.token t :: s.scan.2.drain.1, s.scan.2.drain.2) := by
        rw [drain, Cursor.run_of_token h ht]
        rfl
      have hlt : s.scan.2.cursor.left < s.cursor.left := Cursor.left_scan_lt h ht
      have ih := drain_eq_scans s.scan.2
      rw [hdrain, List.length_cons, scans_succ, ← ih, hscan]
    · rw [drain, Cursor.run_of_end h ht]
      simp [Run.outcomes, scans_succ, scan, h]
  · rw [drain, Cursor.run_of_fault h]
    simp [Run.outcomes, scans_succ, scan, h]
  · rw [drain, Cursor.run_of_inside h]
    simp [Run.outcomes, scans_succ, scan, h]
termination_by s.cursor.left

theorem scans_start (settings : Settings) (source : String) :
    ∃ n, (Session.scans n (start settings source)).1 =
      (Run.of settings source).tokens.map .token ++
        (Run.of settings source).fault.toList.map .fault := by
  refine ⟨(start settings source).drain.1.length, ?_⟩
  rw [← drain_eq_scans, ← Run.outcomes_of]
  rfl

end Session

end ScriptScan
