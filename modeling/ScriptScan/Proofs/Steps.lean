import ScriptScan.Proofs.Place

/-!
# Scans in a row

A loop that scans, looks at the answer and scans again ends with the end of the input or a scan that
finds no token (`Cursor.Steps`). What its scans answer is what a run finds and what they report is
what the run reports (`Cursor.exists_steps`), so whatever takes a source scan by scan sees the
same.
-/

namespace ScriptScan

namespace Cursor

/-- Scans in a row, each from where the one before leaves off, up to the end of the input or a scan
that finds no token. -/
inductive Steps (s : Settings) : Cursor → List Step → Prop
  | last {c : Cursor} (h : ∀ t, (c.scan s).outcome = .token t → t.isEnd = true) :
    Steps s c [c.scan s]
  | next {c : Cursor} {t : Token} {steps : List Step} (h : (c.scan s).outcome = .token t)
    (ht : t.isEnd = false) (hs : Steps s (c.scan s).cursor steps) : Steps s c (c.scan s :: steps)

theorem exists_steps (c : Cursor) (s : Settings) :
    ∃ steps, c.Steps s steps ∧ steps.map Step.outcome = (c.run s).outcomes ∧
      steps.flatMap Step.events = (c.run s).events := by
  rcases h : (c.scan s).outcome with t | f | _
  · rcases ht : t.isEnd with _ | _
    · have hlt := left_scan_lt h ht
      obtain ⟨steps, hsteps, houtcomes, hevents⟩ := exists_steps (c.scan s).cursor s
      refine ⟨c.scan s :: steps, .next h ht hsteps, ?_, ?_⟩
      · simp [run_of_token h ht, Run.behind, Run.outcomes, h, houtcomes]
      · simp [run_of_token h ht, Run.behind, hevents]
    · refine ⟨[c.scan s], .last (by simp [h, ht]), ?_, ?_⟩ <;>
        simp [run_of_end h ht, Run.outcomes, h]
  · refine ⟨[c.scan s], .last (by simp [h]), ?_, ?_⟩ <;> simp [run_of_fault h, Run.outcomes, h]
  · refine ⟨[c.scan s], .last (by simp [h]), ?_, ?_⟩ <;> simp [run_of_inside h, Run.outcomes, h]
termination_by c.left

end Cursor

end ScriptScan
