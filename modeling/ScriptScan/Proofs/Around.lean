import ScriptScan.Diagnostic
import ScriptScan.Proofs.Locate

/-!
# What stands around an offset

Every offset up to the end of a source is around some line, which begins with its indentation
(`Text.exists_around`). The line that is found there, where its indentation ends and the column of
the offset are told by that cut of the source: the column counts the characters behind the
indentation if the source can be cut at the offset (`Text.Around.column_of_boundary`), and is the
first in all other cases (`Text.Around.column_eq_one`).
-/

namespace ScriptScan.Text

open Diagnostic (isIndent)

/-- Whole lines, the spaces and tabs with which the line around an offset begins, the rest of that
line, and what follows it. -/
structure Around (source : List Char) (offset : Nat) where
  above : List Char
  indent : List Char
  body : List Char
  below : List Char
  source_eq : source = above ++ (indent ++ body) ++ below
  closed : Closed above
  oneLine : '\n' ∉ indent ++ body
  lineEnd : below = [] ∨ below.head? = some '\n'
  indented : ∀ c ∈ indent, c = ' ' ∨ c = '\t'
  begins : ∀ c, body.head? = some c → c ≠ ' ' ∧ c ≠ '\t'
  start_le : width above ≤ offset
  le_stop : offset ≤ width (above ++ (indent ++ body))

theorem exists_around {source : List Char} {offset : Nat} (h : offset ≤ width source) :
    Nonempty (Around source offset) := by
  obtain ⟨above, line, below, m, rfl, ha, hline, hbelow, rfl, hm⟩ := exists_line_at source h
  have hcut : line.takeWhile isIndent ++ line.dropWhile isIndent = line :=
    List.takeWhile_append_dropWhile
  refine ⟨⟨above, line.takeWhile isIndent, line.dropWhile isIndent, below, ?_, ha, ?_, hbelow, ?_,
    ?_, Nat.le_add_right _ _, ?_⟩⟩
  · rw [hcut]
  · rwa [hcut]
  · intro c hc
    simpa [isIndent] using List.all_eq_true.1 List.all_takeWhile _ hc
  · intro c hc
    simpa [isIndent] using Trivia.stops_dropWhile isIndent line c hc
  · rw [hcut, width_append]
    omega

theorem trimEnd_append {blank : List Char} (h : ∀ c ∈ blank, isBlank c = true) (cs : List Char) :
    trimEnd (cs ++ blank) = trimEnd cs := by
  rw [trimEnd, List.reverse_append, List.dropWhile_append_of_pos (by simpa using h), trimEnd]

namespace Around

variable {source : List Char} {offset : Nat} (a : Around source offset)

def line : Line := ⟨1 + a.above.count '\n', a.indent ++ a.body ++ a.below.take 1,
  offset - width a.above⟩

theorem lineAt?_offset : lineAt? source offset = some a.line := by
  obtain ⟨m, hm⟩ := Nat.exists_eq_add_of_le a.start_le
  have hle := a.le_stop
  rw [width_append] at hle
  have hline := @lineAt?_eq _ _ _ a.closed a.oneLine a.lineEnd m (by omega)
  rw [← a.source_eq, ← hm] at hline
  rw [hline, line]
  congr
  omega

theorem isIndent_of_mem {c : Char} (hc : c ∈ a.indent) : isIndent c = true := by
  simpa [isIndent] using a.indented c hc

/-- Not even the line feed of its line belongs to an indentation. -/
theorem stops_body : Trivia.Stops isIndent (a.body ++ a.below.take 1) := by
  intro c hc
  rcases hbody : a.body with _ | ⟨d, body⟩ <;> rw [hbody] at hc
  · rcases a.lineEnd with h | h
    · simp [h] at hc
    · obtain ⟨rest, h⟩ := List.head?_eq_some_iff.1 h
      simp only [h, List.nil_append, List.take_succ_cons, List.head?_cons, Option.some.injEq] at hc
      rw [← hc]
      rfl
  · have hne := a.begins c (by simpa [hbody] using hc)
    simpa [isIndent] using hne

theorem isBlank_of_mem_take {c : Char} (hc : c ∈ a.below.take 1) : isBlank c = true := by
  rcases a.lineEnd with h | h
  · simp [h] at hc
  · obtain ⟨rest, h⟩ := List.head?_eq_some_iff.1 h
    simp only [h, List.take_succ_cons, List.take_zero, List.mem_singleton] at hc
    rw [hc]
    rfl

theorem indentation_line : Diagnostic.indentation a.line = a.indent := by
  rw [Diagnostic.indentation, line, List.append_assoc,
    List.takeWhile_append_of_pos fun c => a.isIndent_of_mem, a.stops_body.takeWhile,
    List.append_nil]

theorem unindented_line : Diagnostic.unindented a.line = a.body ++ a.below.take 1 := by
  rw [Diagnostic.unindented, line, List.append_assoc,
    List.dropWhile_append_of_pos fun c => a.isIndent_of_mem, a.stops_body.dropWhile]

theorem trimEnd_line : trimEnd (Diagnostic.unindented a.line) = trimEnd a.body := by
  rw [unindented_line, trimEnd_append fun c => a.isBlank_of_mem_take]

theorem column_of_boundary {lead tail : List Char} (hbody : a.body = lead ++ tail)
    (hoff : offset = width (a.above ++ a.indent ++ lead)) :
    Diagnostic.column a.line = 1 + lead.length := by
  have htext : a.line.text = a.indent ++ lead ++ (tail ++ a.below.take 1) := by
    simp [line, hbody]
  have hstop : a.line.offset = width a.indent + width lead := by
    simp only [line, hoff, width_append]
    omega
  have hslice := slice?_append a.indent lead (tail ++ a.below.take 1)
  rw [← htext, ← hstop] at hslice
  rw [Diagnostic.column, indentation_line, hslice, Nat.add_comm]

end Around

namespace Around

variable {source : String} {n : Nat} (a : Around source.toList n)

theorem number_line : a.line.number = 1 + lineFeeds source n := by
  obtain ⟨m, hm⟩ := Nat.exists_eq_add_of_le a.start_le
  have hle := a.le_stop
  rw [width_append] at hle
  have hfeeds := @lineFeeds_eq_count _ _ _ _ a.source_eq a.oneLine m (by omega)
  rw [← hm] at hfeeds
  rw [hfeeds]
  rfl

/-- Behind the indentation of its line, a boundary between characters cuts the rest of the line. -/
theorem exists_lead (hvalid : (String.Pos.Raw.mk n).IsValid source)
    (hindent : width (a.above ++ a.indent) ≤ n) :
    ∃ lead tail, a.body = lead ++ tail ∧ n = width (a.above ++ a.indent ++ lead) := by
  obtain ⟨rest, hrest⟩ := isValid_iff_drop?.1 hvalid
  obtain ⟨front, hcut, hwidth⟩ := eq_append_of_drop? hrest
  have hsource : a.above ++ a.indent ++ (a.body ++ a.below) = front ++ rest := by
    refine Eq.trans ?_ (a.source_eq.symm.trans hcut)
    simp
  obtain ⟨lead, rfl, hbehind⟩ := exists_append_of_width_le hsource (by omega)
  have hle := a.le_stop
  simp only [width_append] at hle hwidth
  obtain ⟨tail, hbody, -⟩ := exists_append_of_width_le hbehind.symm (by omega)
  refine ⟨lead, tail, hbody, ?_⟩
  simp only [width_append]
  omega

/-- An offset inside the indentation or inside a character counts as the first column. -/
theorem column_eq_one
    (h : ¬ ((String.Pos.Raw.mk n).IsValid source ∧ width (a.above ++ a.indent) ≤ n)) :
    Diagnostic.column a.line = 1 := by
  rw [Diagnostic.column, indentation_line]
  rcases hs : slice? a.line.text (width a.indent) a.line.offset with _ | before
  · rfl
  · obtain ⟨front, rest, htext, hfront, hstop⟩ := exists_of_slice? hs
    have hoff : a.line.offset = n - width a.above := rfl
    have hstart := a.start_le
    have hwidth : n = width (a.above ++ (front ++ before)) := by
      rw [width_append, hstop, hoff]
      omega
    have hbelow : a.below.take 1 ++ a.below.drop 1 = a.below := List.take_append_drop 1 a.below
    have hsource : source.toList = a.above ++ (front ++ before) ++ (rest ++ a.below.drop 1) := calc
      source.toList = a.above ++ (a.indent ++ a.body ++ a.below.take 1) ++ a.below.drop 1 :=
        a.source_eq.trans (by simp only [List.append_assoc, hbelow])
      _ = a.above ++ (front ++ before ++ rest) ++ a.below.drop 1 := by rw [← htext, line]
      _ = _ := by simp only [List.append_assoc]
    refine absurd ⟨isValid_iff_drop?.2 ⟨_, drop?_eq_some_iff.2 ⟨_, hsource, hwidth.symm⟩⟩, ?_⟩ h
    simp only [width_append] at hwidth ⊢
    omega

end Around

end ScriptScan.Text
