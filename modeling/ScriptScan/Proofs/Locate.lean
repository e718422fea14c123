import ScriptScan.Proofs.Bytes
import ScriptScan.Proofs.Lines

/-!
# The line around any byte

The line of a byte begins behind the last line feed in front of it (`Text.lineStart`) and reaches up
to the next (`Text.lineEnd`), both told by the bytes of the source alone. Every offset up to the end
of a text lies in some line (`Text.exists_line_at`), so the line that is found there is the one
between these two, also where the offset is inside a character (`Text.lineAt?_eq_between`).
-/

namespace ScriptScan.Text

/-- The offset behind the last line feed among the first `n` bytes of a source, 0 if there is
none. -/
def lineStart (source : String) (n : Nat) : Nat :=
  ((source.toByteArray.data.toList.take n).reverse.dropWhile (· != 10)).length

/-- The offset behind the first line feed from byte `b` of a source on, its size if there is
none. -/
def lineEnd (source : String) (b : Nat) : Nat :=
  let ahead := source.toByteArray.data.toList.drop b
  if 10 ∈ ahead then b + ahead.idxOf 10 + 1 else source.utf8ByteSize

/-- An offset within a text lies in one of its lines, or at the end of the last. -/
theorem exists_line_at (cs : List Char) {n : Nat} (h : n ≤ width cs) :
    ∃ above body below m, cs = above ++ body ++ below ∧ Closed above ∧ '\n' ∉ body ∧
      (below = [] ∨ below.head? = some '\n') ∧ n = width above + m ∧ m ≤ width body := by
  obtain ⟨body, below, rfl, hb, hbelow⟩ := exists_line cs
  by_cases hn : n ≤ width body
  · exact ⟨[], body, below, n, rfl, closed_nil, hb, hbelow, by simp, hn⟩
  · rcases hbelow with rfl | hbelow
    · rw [List.append_nil] at h
      exact absurd h hn
    · obtain ⟨rest, rfl⟩ := List.head?_eq_some_iff.1 hbelow
      have hfeed : '\n'.utf8Size = 1 := rfl
      simp only [width_append, width_cons, hfeed] at h
      obtain ⟨above, body', below, m, rfl, ha, hb', hbelow', hm, hle⟩ :=
        exists_line_at rest (n := n - (width body + 1)) (by omega)
      refine ⟨body ++ '\n' :: above, body', below, m, by simp, closed_append_lineFeed body ha, hb',
        hbelow', ?_, hle⟩
      simp only [width_append, width_cons, hfeed]
      omega
termination_by cs.length

theorem notMem_bytes {cs : List Char} (h : '\n' ∉ cs) : 10 ∉ bytes cs := by
  rw [← List.count_eq_zero, count_bytes, List.count_eq_zero]
  exact h

section Cut

variable {source : String} {above body below : List Char}
  (h : source.toList = above ++ body ++ below)
include h

theorem bytes_eq_append :
    source.toByteArray.data.toList = bytes above ++ (bytes body ++ bytes below) := by
  rw [← bytes_toList, h, bytes_append, bytes_append, List.append_assoc]

variable (hb : '\n' ∉ body)

section Offset

variable {m : Nat} (hm : m ≤ width body)
include hm

theorem take_bytes_eq :
    source.toByteArray.data.toList.take (width above + m) = bytes above ++ (bytes body).take m := by
  rw [bytes_eq_append h, ← length_bytes above, List.take_length_add_append,
    List.take_append_of_le_length (by rwa [length_bytes])]

include hb

theorem lineFeeds_eq_count : lineFeeds source (width above + m) = above.count '\n' := by
  have hnone : ((bytes body).take m).count 10 = 0 :=
    List.count_eq_zero_of_not_mem fun hmem => notMem_bytes hb (List.mem_of_mem_take hmem)
  rw [lineFeeds, take_bytes_eq h hm, List.count_append, count_bytes, hnone, Nat.add_zero]

theorem lineStart_eq (ha : Closed above) : lineStart source (width above + m) = width above := by
  have hbody : ∀ b ∈ ((bytes body).take m).reverse, (b != 10) = true := by
    intro b hmem
    rw [bne_iff_ne]
    rintro rfl
    exact notMem_bytes hb (List.mem_of_mem_take (List.mem_reverse.1 hmem))
  rw [lineStart, take_bytes_eq h hm, List.reverse_append, List.dropWhile_append_of_pos hbody,
    ← length_bytes above]
  -- what is left of the front ends with its last line feed
  rcases ha.eq_nil_or_concat with rfl | ⟨init, rfl⟩
  · rfl
  · have hfeed : bytes ['\n'] = [10] := rfl
    rw [bytes_append, hfeed, List.reverse_append, List.reverse_singleton, List.singleton_append,
      List.dropWhile_cons_of_neg (by decide), List.length_cons, List.length_reverse,
      List.length_append, List.length_singleton]

end Offset

include hb

theorem lineEnd_eq (hbelow : below = [] ∨ below.head? = some '\n') :
    lineEnd source (width above) = width above + width (body ++ below.take 1) := by
  have hbody : 10 ∉ bytes body := notMem_bytes hb
  rw [lineEnd, bytes_eq_append h, List.drop_left' (length_bytes above)]
  rcases hbelow with rfl | hbelow
  · have hnone : 10 ∉ bytes body ++ bytes [] := by simpa [bytes] using hbody
    rw [if_neg hnone, ← width_toList, h]
    simp
  · obtain ⟨rest, rfl⟩ := List.head?_eq_some_iff.1 hbelow
    have hfeed : bytes ('\n' :: rest) = 10 :: bytes rest := rfl
    have hindex : (bytes body ++ 10 :: bytes rest).idxOf 10 = width body := by
      rw [List.idxOf_append, if_neg hbody, List.idxOf_cons_self, Nat.zero_add, length_bytes]
    rw [hfeed, if_pos (by simp), hindex, List.take_succ_cons, List.take_zero, width_append]
    rfl

end Cut

/-- Past the end of a source there is no line; up to its end the line at an offset is what stands
between the two ends that the line feeds around the offset give it. -/
theorem lineAt?_eq_between (source : String) (n : Nat) :
    (source.utf8ByteSize < n → lineAt? source.toList n = none) ∧
      (n ≤ source.utf8ByteSize → ∃ text,
        slice? source.toList (lineStart source n) (lineEnd source (lineStart source n)) =
            some text ∧
          lineAt? source.toList n =
            some ⟨1 + lineFeeds source n, text, n - lineStart source n⟩) := by
  rw [← width_toList]
  refine ⟨fun h => if_pos h, fun h => ?_⟩
  obtain ⟨above, body, below, m, hcs, ha, hb, hbelow, rfl, hm⟩ := exists_line_at source.toList h
  refine ⟨body ++ below.take 1, ?_, ?_⟩
  · rw [lineStart_eq hcs hb hm ha, lineEnd_eq hcs hb hbelow]
    have hcut : source.toList = above ++ (body ++ below.take 1) ++ below.drop 1 := by
      rw [hcs, List.append_assoc, List.append_assoc, List.append_assoc, List.take_append_drop]
    rw [hcut, slice?_append]
  · rw [lineStart_eq hcs hb hm ha, lineFeeds_eq_count hcs hb hm, hcs,
      lineAt?_eq ha hb hbelow hm, Nat.add_sub_cancel_left]

theorem lineAt?_eq_between_snowman :
    let source := "a\n☃é\n"
    3 ≤ source.utf8ByteSize ∧ lineStart source 3 = 2 ∧ lineEnd source 2 = 8 ∧
      (∃ text, slice? source.toList (lineStart source 3) (lineEnd source (lineStart source 3)) =
        some text ∧
        lineAt? source.toList 3 = some ⟨1 + lineFeeds source 3, text, 3 - lineStart source 3⟩) ∧
      source.utf8ByteSize < 9 ∧ lineAt? source.toList 9 = none := by
  intro source
  have hinside : 3 ≤ source.utf8ByteSize := by decide
  have hpast : source.utf8ByteSize < 9 := by decide
  exact ⟨hinside, by decide +kernel, by decide +kernel, (lineAt?_eq_between source 3).2 hinside,
    hpast, (lineAt?_eq_between source 9).1 hpast⟩

end ScriptScan.Text
