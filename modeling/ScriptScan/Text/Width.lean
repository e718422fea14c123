/-!
# Widths and offsets

A text is a list of characters, and its width is the number of bytes it takes in UTF-8. An offset
counts bytes; `drop?`, `take?` and `slice?` cut a text at offsets and fail at one which lies inside
a character or past the end.
-/

namespace ScriptScan.Text

/-- The number of bytes of a text in UTF-8. -/
def width (cs : List Char) : Nat := cs.foldl (fun n c => n + c.utf8Size) 0

theorem foldl_utf8Size (cs : List Char) (n : Nat) :
    cs.foldl (fun n c => n + c.utf8Size) n = n + width cs := by
  induction cs generalizing n with
  | nil => simp [width]
  | cons c cs ih =>
    simp only [width, List.foldl_cons]
    rw [ih, ih (0 + c.utf8Size)]
    omega

@[simp] theorem width_nil : width [] = 0 := rfl

@[simp] theorem width_cons (c : Char) (cs : List Char) :
    width (c :: cs) = c.utf8Size + width cs := by
  rw [width, List.foldl_cons, foldl_utf8Size]
  omega

@[simp] theorem width_append (cs ds : List Char) : width (cs ++ ds) = width cs + width ds := by
  induction cs with
  | nil => simp
  | cons c cs ih =>
    rw [List.cons_append, width_cons, width_cons, ih]
    omega

theorem width_replicate (n : Nat) (c : Char) :
    width (List.replicate n c) = n * c.utf8Size := by
  induction n with
  | zero => simp
  | succ n ih => rw [List.replicate_succ, width_cons, ih, Nat.succ_mul, Nat.add_comm]

theorem width_ofList (cs : List Char) : width cs = (String.ofList cs).utf8ByteSize := by
  induction cs with
  | nil => rfl
  | cons c cs ih =>
    rw [width_cons, ih, ← List.singleton_append, String.ofList_append, String.utf8ByteSize_append,
      ← String.singleton_eq_ofList, String.utf8ByteSize_singleton]

theorem width_toList (s : String) : width s.toList = s.utf8ByteSize := by
  rw [width_ofList, String.ofList_toList]

theorem length_le_width (cs : List Char) : cs.length ≤ width cs := by
  induction cs with
  | nil => simp
  | cons c cs ih =>
    have := c.utf8Size_pos
    rw [List.length_cons, width_cons]
    omega

def drop? : List Char → Nat → Option (List Char)
  | cs, 0 => some cs
  | [], _ + 1 => none
  | c :: cs, n + 1 => if c.utf8Size ≤ n + 1 then drop? cs (n + 1 - c.utf8Size) else none

def take? (cs : List Char) (n : Nat) : Option (List Char) :=
  (drop? cs n).map fun rest => cs.take (cs.length - rest.length)

def slice? (cs : List Char) (i j : Nat) : Option (List Char) :=
  if i ≤ j then (drop? cs i).bind (take? · (j - i)) else none

@[simp] theorem drop?_zero (cs : List Char) : drop? cs 0 = some cs := by
  cases cs <;> rfl

theorem drop?_cons_of_pos (c : Char) (cs : List Char) {n : Nat} (h : 0 < n) :
    drop? (c :: cs) n = if c.utf8Size ≤ n then drop? cs (n - c.utf8Size) else none := by
  cases n with
  | zero => omega
  | succ n => rfl

theorem drop?_append (cs ds : List Char) : drop? (cs ++ ds) (width cs) = some ds := by
  induction cs with
  | nil => simp
  | cons c cs ih =>
    have := c.utf8Size_pos
    rw [List.cons_append, width_cons, drop?_cons_of_pos _ _ (by omega),
      if_pos (by omega), Nat.add_sub_cancel_left, ih]

theorem eq_append_of_drop? {cs rest : List Char} {n : Nat} (h : drop? cs n = some rest) :
    ∃ front, cs = front ++ rest ∧ width front = n := by
  induction cs generalizing n with
  | nil =>
    cases n with
    | zero => exact ⟨[], by simpa using h, rfl⟩
    | succ n => simp [drop?] at h
  | cons c cs ih =>
    rcases Nat.eq_zero_or_pos n with rfl | hn
    · exact ⟨[], by simpa using h, rfl⟩
    rw [drop?_cons_of_pos _ _ hn] at h
    split at h
    · obtain ⟨front, rfl, hw⟩ := ih h
      exact ⟨c :: front, rfl, by rw [width_cons]; omega⟩
    · simp at h

theorem drop?_eq_some_iff {cs rest : List Char} {n : Nat} :
    drop? cs n = some rest ↔ ∃ front, cs = front ++ rest ∧ width front = n :=
  ⟨eq_append_of_drop?, fun ⟨front, h, hn⟩ => by rw [h, ← hn, drop?_append]⟩

theorem drop?_inside (init : List Char) (c : Char) (cs : List Char) {k : Nat} (h : 0 < k)
    (hk : k < c.utf8Size) : drop? (init ++ c :: cs) (width init + k) = none := by
  induction init with
  | nil =>
    rw [List.nil_append, width_nil, Nat.zero_add, drop?_cons_of_pos _ _ h, if_neg (by omega)]
  | cons d init ih =>
    have := d.utf8Size_pos
    rw [List.cons_append, width_cons, drop?_cons_of_pos _ _ (by omega), if_pos (by omega),
      show d.utf8Size + width init + k - d.utf8Size = width init + k by omega, ih]

theorem take?_append (cs ds : List Char) : take? (cs ++ ds) (width cs) = some cs := by
  simp [take?, drop?_append]

theorem slice?_append (front cs ds : List Char) :
    slice? (front ++ cs ++ ds) (width front) (width front + width cs) = some cs := by
  simp [slice?, List.append_assoc, drop?_append, take?_append]

theorem append_inj_of_width {cs ds cs' ds' : List Char} (h : cs ++ ds = cs' ++ ds')
    (hw : width cs = width cs') : cs = cs' ∧ ds = ds' := by
  have hcs := take?_append cs ds
  rw [h, hw, take?_append] at hcs
  cases hcs
  exact ⟨rfl, List.append_cancel_left h⟩

/-- The longer of two front parts of a text goes on behind the shorter one. -/
theorem exists_append_of_width_le {as bs cs ds : List Char} (h : as ++ bs = cs ++ ds)
    (hw : width as ≤ width cs) : ∃ mid, cs = as ++ mid ∧ bs = mid ++ ds := by
  rcases List.append_eq_append_iff.1 h with hmid | ⟨mid, rfl, rfl⟩
  · exact hmid
  · have hlen := length_le_width mid
    rw [width_append] at hw
    obtain rfl : mid = [] := List.eq_nil_of_length_eq_zero (by omega)
    exact ⟨[], by simp, rfl⟩

/-- What is cut out between two offsets stands between two texts of their widths. -/
theorem exists_of_slice? {cs mid : List Char} {i j : Nat} (h : slice? cs i j = some mid) :
    ∃ front rest, cs = front ++ mid ++ rest ∧ width front = i ∧ width (front ++ mid) = j := by
  unfold slice? at h
  split at h
  · rename_i hle
    obtain ⟨ahead, hdrop, htake⟩ := Option.bind_eq_some_iff.1 h
    obtain ⟨front, rfl, rfl⟩ := eq_append_of_drop? hdrop
    obtain ⟨rest, hrest, hmid⟩ := Option.map_eq_some_iff.1 htake
    obtain ⟨cut, rfl, hcut⟩ := eq_append_of_drop? hrest
    obtain rfl : cut = mid := by simpa using hmid
    refine ⟨front, rest, by simp, rfl, ?_⟩
    rw [width_append]
    omega
  · cases h

theorem le_of_slice? {cs mid : List Char} {i j : Nat} (h : slice? cs i j = some mid) : i ≤ j := by
  obtain ⟨front, rest, -, rfl, rfl⟩ := exists_of_slice? h
  rw [width_append]
  omega

end ScriptScan.Text
