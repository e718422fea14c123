import ScriptScan.Proofs.Caret

/-!
# Diagnostics against any source

A fault may be drawn against a source in which it was not found. Past its end nothing is drawn and
the message stands in place of a picture; at every other offset there are five rows, of which the
line row shows the line around the offset and its number, not the line that the fault tells. Only
the width of the caret decides whether they can be drawn (`Diagnostic.render?_anywhere`).
-/

namespace ScriptScan.Diagnostic

open Text (Around lineFeeds)

/-- The first two rows of every diagnostic. -/
def top (f : Fault) : String :=
  "Error: " ++ f.cause.name ++ (f.cause.tip.elim "" fun tip => " (" ++ tip ++ ")") ++ "\n" ++
    "-> " ++ f.position.file ++ "\n"

/-- The width of the caret at an offset: it reaches over the characters between the indentation and
the offset, if the offset is a boundary behind the indentation. -/
structure CaretWidth {source : String} {n : Nat} (a : Around source.toList n) (w : Nat) : Prop where
  behind : (String.Pos.Raw.mk n).IsValid source → Text.width (a.above ++ a.indent) ≤ n →
    ∃ lead tail, a.body = lead ++ tail ∧ n = Text.width (a.above ++ a.indent ++ lead) ∧
      w = 1 + lead.length
  first : ¬ ((String.Pos.Raw.mk n).IsValid source ∧ Text.width (a.above ++ a.indent) ≤ n) → w = 1

section Width

variable {source : String} {n : Nat} {a : Around source.toList n}

theorem CaretWidth.le {w : Nat} (h : CaretWidth a w) : w ≤ 1 + a.body.length := by
  by_cases hn : (String.Pos.Raw.mk n).IsValid source ∧ Text.width (a.above ++ a.indent) ≤ n
  · obtain ⟨lead, tail, hbody, -, rfl⟩ := h.behind hn.1 hn.2
    rw [hbody, List.length_append]
    omega
  · rw [h.first hn]
    omega

/-- Every cut of the line at the offset tells the same width. -/
theorem CaretWidth.eq_of_boundary {w : Nat} (h : CaretWidth a w) {lead tail : List Char}
    (hbody : a.body = lead ++ tail) (hn : n = Text.width (a.above ++ a.indent ++ lead)) :
    w = 1 + lead.length := by
  have hsource : source.toList = a.above ++ a.indent ++ lead ++ (tail ++ a.below) :=
    a.source_eq.trans (by simp [hbody])
  have hvalid : (String.Pos.Raw.mk n).IsValid source :=
    Text.isValid_iff_drop?.2 ⟨_, Text.drop?_eq_some_iff.2 ⟨_, hsource, hn.symm⟩⟩
  rw [Text.width_append _ lead] at hn
  obtain ⟨lead', tail', hbody', hn', rfl⟩ := h.behind hvalid (by omega)
  have hwidth : Text.width lead' = Text.width lead := by
    rw [Text.width_append _ lead'] at hn'
    omega
  rw [(Text.append_inj_of_width (hbody'.symm.trans hbody) hwidth).1]

variable (a) in
theorem caretWidth_column : CaretWidth a (column a.line) := by
  refine ⟨fun hvalid hindent => ?_, a.column_eq_one⟩
  obtain ⟨lead, tail, hbody, hoff⟩ := a.exists_lead hvalid hindent
  exact ⟨lead, tail, hbody, hoff, a.column_of_boundary hbody hoff⟩

end Width

theorem render?_of_lt {f : Fault} {source : String}
    (h : source.utf8ByteSize < f.position.offset.toNat) :
    render? f source = some (top f ++ f.message ++ "\n") := by
  rw [← Text.width_toList] at h
  rw [render?, rows?, Text.lineAt?, if_pos h]
  simp only [Option.map_some, text, top, header_eq, List.cons_append, List.nil_append,
    List.map_cons, List.map_nil, String.join, List.foldl_cons, List.foldl_nil, String.empty_append,
    String.append_assoc]

theorem render?_eq_none_iff {f : Fault} {source : String} {l : Text.Line}
    (hl : Text.lineAt? source.toList f.position.offset.toNat = some l) :
    render? f source = none ↔ widest < column l := by
  rw [render?, rows?, hl]
  simp

/-- Whatever a fault tells and whatever source it is drawn against: past the end of the source the
message follows the first two rows; elsewhere the line at the offset is shown with its own number
and a caret, unless the caret would be too wide to be drawn. -/
theorem render?_anywhere (f : Fault) (source : String) :
    let n := f.position.offset.toNat
    (source.utf8ByteSize < n → render? f source = some (top f ++ f.message ++ "\n")) ∧
      (n ≤ source.utf8ByteSize → Nonempty (Around source.toList n)) ∧
      ∀ a : Around source.toList n, ∃ w, CaretWidth a w ∧ w ≤ 1 + a.body.length ∧
        (render? f source = none ↔ 65535 < w) ∧
        (w ≤ 65535 → ∃ (r : Rows) (shown : List Char),
          render? f source = some r.text ∧
            top f = r.title ++ "\n" ++ r.place ++ "\n" ∧ Text.Trimmed a.body shown ∧
            r.Pictures (toString (1 + lineFeeds source n)).toList shown (w - 1)) := by
  intro n
  refine ⟨render?_of_lt, fun h => Text.exists_around (by rwa [Text.width_toList]), fun a => ?_⟩
  have hwidth := caretWidth_column a
  refine ⟨_, hwidth, hwidth.le, render?_eq_none_iff a.lineAt?_offset, fun hw => ?_⟩
  obtain ⟨r, htext, htitle, hplace, -, hpictures⟩ := exists_rows f a.line
  rw [a.number_line, a.trimEnd_line] at hpictures
  refine ⟨r, _, (render?_eq a.lineAt?_offset hw).trans (congrArg some htext), ?_,
    Text.trimmed_trimEnd a.body, hpictures⟩
  rw [htitle, hplace, header_eq, top]
  simp only [String.append_assoc]

/-- A fault drawn against another source: past its end, on its second line, and behind 65535
letters. -/
theorem render?_anywhere_snowman :
    let f (n : UInt32) : Fault := ⟨.numberTooLarge "9☃", 7, ⟨n, "b"⟩⟩
    let source := "☃\n\té☃\n"
    let long := String.ofList (List.replicate 65536 'a')
    source.utf8ByteSize < (f 100).position.offset.toNat ∧
      render? (f 100) source = some (top (f 100) ++ (f 100).message ++ "\n") ∧
      (f 7).position.offset.toNat ≤ source.utf8ByteSize ∧
      (∃ (a : Around source.toList 7) (r : Rows) (shown : List Char), CaretWidth a 2 ∧
        render? (f 7) source = some r.text ∧ Text.Trimmed a.body shown ∧
          r.Pictures (toString (1 + lineFeeds source 7)).toList shown 1) ∧
      (f 65535).position.offset.toNat ≤ long.utf8ByteSize ∧ render? (f 65535) long = none := by
  intro f source long
  have hpast : source.utf8ByteSize < (f 100).position.offset.toNat := by decide
  have hin : (f 7).position.offset.toNat ≤ source.utf8ByteSize := by decide
  refine ⟨hpast, (render?_anywhere (f 100) source).1 hpast, hin, ?_, ?_⟩
  · let a : Around source.toList 7 :=
      ⟨"☃\n".toList, "\t".toList, "é☃".toList, "\n".toList, by decide +kernel,
        by simp [Text.Closed], by decide +kernel, by decide +kernel, by simp, by simp,
        by decide +kernel, by decide +kernel⟩
    obtain ⟨-, -, hrender⟩ := render?_anywhere (f 7) source
    obtain ⟨w, hwidth, -, -, hdrawn⟩ := hrender a
    have hbody : a.body = ['é'] ++ ['☃'] := rfl
    obtain rfl : w = 2 := hwidth.eq_of_boundary hbody (by decide +kernel)
    obtain ⟨r, shown, htext, -, hshown, hpictures⟩ := hdrawn (by decide)
    exact ⟨a, r, shown, hwidth, htext, hshown, hpictures⟩
  · have hbytes (n : Nat) : Text.width (List.replicate n 'a') = n :=
      (Text.width_replicate n 'a').trans (Nat.mul_one n)
    have hsame {c : Char} (hc : c ∈ List.replicate 65536 'a') : c = 'a' :=
      List.eq_of_mem_replicate hc
    have hfit : (f 65535).position.offset.toNat ≤ long.utf8ByteSize := by
      rw [← Text.width_toList, String.toList_ofList, hbytes]
      decide
    let a : Around long.toList 65535 :=
      ⟨[], [], List.replicate 65536 'a', [], by rw [List.append_nil]; exact String.toList_ofList,
        Text.closed_nil, fun hc => absurd (hsame hc) (by decide), Or.inl rfl, by simp,
        fun c hc => by rw [hsame (List.mem_of_head? hc)]; decide, Nat.zero_le _,
        by rw [List.nil_append, List.nil_append, hbytes]; decide⟩
    obtain ⟨-, -, hrender⟩ := render?_anywhere (f 65535) long
    obtain ⟨w, hwidth, -, hnone, -⟩ := hrender a
    have hbody : a.body = List.replicate 65535 'a' ++ ['a'] := List.replicate_succ'
    have hw := hwidth.eq_of_boundary hbody (hbytes 65535).symm
    rw [List.length_replicate] at hw
    exact ⟨hfit, hnone.2 (by omega)⟩

example : render? ⟨.unexpected '☃', 7, ⟨7, "b"⟩⟩ "☃\n\té☃\n" =
    some "Error: UnexpectedToken\n-> b\n  |\n2 | é☃\n  | -^\n" := by
  decide +kernel

end ScriptScan.Diagnostic
