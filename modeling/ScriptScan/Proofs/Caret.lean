import ScriptScan.Proofs.Around
import ScriptScan.Proofs.Summary
import ScriptScan.Proofs.Tracking

/-!
# Carets

A fault stands at a character behind the indentation of its line (`Session.Stands.spot_of_fault`),
and its line is numbered from the line feeds above it, as the session counts them. The diagnostic of
such a fault is five rows (`Diagnostic.exists_rows`), in which bar stands below bar and the caret
below the character (`Diagnostic.exists_draws`).
-/

namespace ScriptScan

open Diagnostic (isIndent)
open Reading (Reads)

namespace Text

/-- A character of a source, which begins at `offset`, and what stands around it: whole lines, the
spaces and tabs with which its line begins, the rest of the line up to it and behind it, and what
follows that line. -/
structure Spot (source : List Char) (offset : Nat) where
  above : List Char
  indent : List Char
  lead : List Char
  char : Char
  tail : List Char
  below : List Char
  source_eq : source = above ++ (indent ++ lead ++ char :: tail) ++ below
  offset_eq : offset = width (above ++ indent ++ lead)
  closed : Closed above
  oneLine : '\n' ∉ indent ++ lead ++ char :: tail
  lineEnd : below = [] ∨ below.head? = some '\n'
  indented : ∀ c ∈ indent, c = ' ' ∨ c = '\t'
  begins : ∀ c, (lead ++ [char]).head? = some c → c ≠ ' ' ∧ c ≠ '\t'

/-- `shown` is `cs` without the white space at its end. -/
def Trimmed (cs shown : List Char) : Prop :=
  ∃ cut, cs = shown ++ cut ∧ (∀ c ∈ cut, isBlank c = true) ∧
    ∀ c, shown.getLast? = some c → isBlank c = false

theorem Trimmed.isPrefix {cs shown : List Char} (h : Trimmed cs shown) : shown <+: cs := by
  obtain ⟨cut, hcut, -, -⟩ := h
  exact ⟨cut, hcut.symm⟩

theorem trimmed_trimEnd (cs : List Char) : Trimmed cs (trimEnd cs) := by
  refine ⟨(cs.reverse.takeWhile isBlank).reverse, ?_, ?_, ?_⟩
  · rw [trimEnd, ← List.reverse_append, List.takeWhile_append_dropWhile, List.reverse_reverse]
  · intro c hc
    exact List.all_eq_true.1 List.all_takeWhile _ (List.mem_reverse.1 hc)
  · intro c hc
    rw [trimEnd, List.getLast?_reverse] at hc
    exact Trivia.stops_dropWhile isBlank cs.reverse c hc

/-- There is a spot at every character that is no spacing. -/
theorem exists_spot (front : List Char) {c : Char} (rest : List Char)
    (hc : Trivia.isSpacing c = false) : Nonempty (Spot (front ++ c :: rest) (width front)) := by
  simp only [Trivia.isSpacing, Bool.or_eq_false_iff, beq_eq_false_iff_ne] at hc
  obtain ⟨above, start, rfl, ha, hstart⟩ := exists_closed front
  obtain ⟨tail, below, rfl, htail, hbelow⟩ := exists_line rest
  have hcut : start.takeWhile isIndent ++ start.dropWhile isIndent = start :=
    List.takeWhile_append_dropWhile
  refine ⟨⟨above, start.takeWhile isIndent, start.dropWhile isIndent, c, tail, below, ?_, ?_, ha,
    ?_, hbelow, ?_, ?_⟩⟩
  · rw [hcut]
    simp
  · rw [List.append_assoc, hcut]
  · rw [hcut]
    simp [hstart, htail, Ne.symm hc.2]
  · intro d hd
    simpa [isIndent] using List.all_eq_true.1 List.all_takeWhile _ hd
  · intro d hd
    rcases hlead : start.dropWhile isIndent with _ | ⟨e, lead⟩ <;> rw [hlead] at hd <;> cases hd
    · exact hc.1.1
    · simpa [isIndent] using Trivia.stops_dropWhile isIndent start d (by rw [hlead]; rfl)

namespace Spot

variable {source : List Char} {offset : Nat} (spot : Spot source offset)

/-- What stands in the line of a spot behind its indentation. -/
def text : List Char := spot.lead ++ spot.char :: spot.tail

def line : Line :=
  ⟨1 + spot.above.count '\n', spot.indent ++ spot.text ++ spot.below.take 1,
    width (spot.indent ++ spot.lead)⟩

/-- A spot is a place behind an indentation. -/
def around : Around source offset where
  above := spot.above
  indent := spot.indent
  body := spot.text
  below := spot.below
  source_eq := spot.source_eq.trans (by rw [text, List.append_assoc spot.indent])
  closed := spot.closed
  oneLine := by simpa only [text, List.append_assoc] using spot.oneLine
  lineEnd := spot.lineEnd
  indented := spot.indented
  begins := by
    intro c hc
    exact spot.begins c (by rcases h : spot.lead <;> simpa [text, h] using hc)
  start_le := by
    have hoff := spot.offset_eq
    simp only [width_append] at hoff
    omega
  le_stop := by
    have hoff := spot.offset_eq
    simp only [text, width_append] at hoff ⊢
    omega

theorem line_eq : spot.line = spot.around.line := by
  have hoff : width (spot.indent ++ spot.lead) = offset - width spot.above := by
    have hoff := spot.offset_eq
    simp only [width_append] at hoff ⊢
    omega
  exact congrArg (Line.mk _ _) hoff

theorem lineAt?_offset : lineAt? source offset = some spot.line := by
  rw [line_eq]
  exact spot.around.lineAt?_offset

theorem lineFeed_notMem_text : '\n' ∉ spot.text := by
  have h := spot.around.oneLine
  rw [List.mem_append, not_or] at h
  exact h.2

theorem trimEnd_line : trimEnd (Diagnostic.unindented spot.line) = trimEnd spot.text := by
  rw [line_eq]
  exact spot.around.trimEnd_line

theorem column_line : Diagnostic.column spot.line = spot.lead.length + 1 := by
  rw [line_eq, Nat.add_comm]
  exact spot.around.column_of_boundary rfl spot.offset_eq

end Spot

theorem Spot.number_line {source : String} {offset : Nat} (spot : Spot source.toList offset) :
    spot.line.number = 1 + lineFeeds source offset :=
  spot.around.number_line

end Text

theorem idxOf?_append_cons {x : Char} {before : List Char} (h : x ∉ before) (behind : List Char) :
    (before ++ x :: behind).idxOf? x = some before.length := by
  induction before with
  | nil => simp [List.idxOf?_cons]
  | cons c before ih =>
    rw [List.mem_cons, not_or] at h
    rw [List.cons_append, List.idxOf?_cons, ih h.2, if_neg (by simpa using Ne.symm h.1)]
    rfl

namespace Diagnostic

/-- The rows of a diagnostic with a line. -/
structure Rows where
  title : String
  place : String
  gutter : String
  line : String
  caret : String

namespace Rows

def text (r : Rows) : String :=
  r.title ++ "\n" ++ r.place ++ "\n" ++ r.gutter ++ "\n" ++ r.line ++ "\n" ++ r.caret ++ "\n"

/-- The rows show a fault at a spot: its name and tip, its file, and below a gutter the number of
its line with what is `shown` of it, and a caret. The bars of the last three rows stand in one
column. The only caret stands as far from the beginning of what is shown as the character at the
spot from the indentation, and so in the column of that character if it is shown. -/
structure Draws (r : Rows) (f : Fault) {source : List Char} {offset : Nat}
    (spot : Text.Spot source offset) (shown : List Char) : Prop where
  oneLine : ∀ row ∈ [r.title, r.place, r.gutter, r.line, r.caret], '\n' ∉ row.toList
  title : r.title =
    "Error: " ++ f.cause.name ++ f.cause.tip.elim "" fun tip => " (" ++ tip ++ ")"
  place : r.place = "-> " ++ f.position.file
  gutter : ∃ n, r.gutter.toList = List.replicate n ' ' ++ ['|']
  line : r.line = toString f.line.toNat ++ " | " ++ String.ofList shown
  caret : ∃ n k, r.caret.toList =
    List.replicate n ' ' ++ ['|', ' '] ++ List.replicate k '-' ++ ['^']
  trimmed : Text.Trimmed spot.text shown
  bars : ∃ column, ∀ row ∈ [r.gutter, r.line, r.caret], row.toList.idxOf? '|' = some column
  below : ∃ column, column = (toString f.line.toNat ++ " | ").length + spot.lead.length ∧
    r.caret.toList.idxOf? '^' = some column ∧ r.caret.toList.count '^' = 1 ∧
      (spot.lead.length < shown.length → r.line.toList[column]? = some spot.char)

/-- The last three rows, character by character, with the caret `k` characters behind the beginning
of what is shown. -/
structure Pictures (r : Rows) (number shown : List Char) (k : Nat) : Prop where
  gutter : r.gutter.toList = List.replicate (number.length + 1) ' ' ++ ['|']
  line : r.line.toList = number ++ [' ', '|', ' '] ++ shown
  caret : r.caret.toList =
    List.replicate (number.length + 1) ' ' ++ ['|', ' '] ++ List.replicate k '-' ++ ['^']

namespace Pictures

variable {r : Rows} {number shown : List Char} {k : Nat} (h : r.Pictures number shown k)
include h

theorem lineFeed_notMem (hn : '\n' ∉ number) (hs : '\n' ∉ shown) :
    '\n' ∉ r.gutter.toList ∧ '\n' ∉ r.line.toList ∧ '\n' ∉ r.caret.toList := by
  rw [h.gutter, h.line, h.caret]
  simp [hn, hs]

theorem idxOf?_bar (hn : '|' ∉ number) {row : String} (hrow : row ∈ [r.gutter, r.line, r.caret]) :
    row.toList.idxOf? '|' = some (number.length + 1) := by
  have hblank : '|' ∉ List.replicate (number.length + 1) ' ' := by simp
  simp only [List.mem_cons, List.not_mem_nil, or_false] at hrow
  rcases hrow with rfl | rfl | rfl
  · rw [h.gutter, idxOf?_append_cons hblank, List.length_replicate]
  · have hline : r.line.toList = number ++ [' '] ++ '|' :: ' ' :: shown := by simp [h.line]
    rw [hline, idxOf?_append_cons (by simp [hn]), List.length_append, List.length_singleton]
  · have hcaret : r.caret.toList = List.replicate (number.length + 1) ' ' ++
        '|' :: ' ' :: (List.replicate k '-' ++ ['^']) := by simp [h.caret]
    rw [hcaret, idxOf?_append_cons hblank, List.length_replicate]

theorem idxOf?_caret : r.caret.toList.idxOf? '^' = some (number.length + 3 + k) := by
  rw [h.caret, idxOf?_append_cons (by simp)]
  simp only [List.length_append, List.length_replicate, List.length_cons, List.length_nil]

theorem count_caret : r.caret.toList.count '^' = 1 := by
  simp [h.caret, List.count_replicate]

theorem getElem?_line (i : Nat) : r.line.toList[number.length + 3 + i]? = shown[i]? := by
  have hlen : (number ++ [' ', '|', ' ']).length = number.length + 3 := List.length_append
  rw [h.line, ← hlen, List.getElem?_append_right (by omega), Nat.add_sub_cancel_left]

theorem getElem?_spot {source : List Char} {offset : Nat} {spot : Text.Spot source offset}
    (ht : Text.Trimmed spot.text shown) (hlt : spot.lead.length < shown.length) :
    r.line.toList[number.length + 3 + spot.lead.length]? = some spot.char := by
  obtain ⟨cut, hcut⟩ := ht.isPrefix
  have hchar : spot.text[spot.lead.length]? = some spot.char := by simp [Text.Spot.text]
  rw [h.getElem?_line, ← List.getElem?_append_left hlt, hcut, hchar]

end Pictures

end Rows

theorem toList_padLeft (fill : Char) (n : Nat) (s : String) :
    (padLeft fill n s).toList = List.replicate (n - s.length) fill ++ s.toList := by
  rw [padLeft, String.toList_append, String.toList_ofList]

theorem header_eq (f : Fault) :
    header f = "Error: " ++ f.cause.name ++ f.cause.tip.elim "" fun tip => " (" ++ tip ++ ")" := by
  unfold header
  rcases f.cause.tip with _ | tip
  · exact String.append_empty.symm
  · simp [String.append_assoc]

theorem render?_eq {f : Fault} {source : String} {l : Text.Line}
    (hl : Text.lineAt? source.toList f.position.offset.toNat = some l) (hc : column l ≤ widest) :
    render? f source = some (text (header f :: ("-> " ++ f.position.file) :: picture l)) := by
  rw [render?, rows?, hl]
  simp only [if_pos hc]
  rfl

theorem exists_rows (f : Fault) (l : Text.Line) :
    ∃ r : Rows, text (header f :: ("-> " ++ f.position.file) :: picture l) = r.text ∧
      r.title = header f ∧ r.place = "-> " ++ f.position.file ∧
      r.line = toString l.number ++ " | " ++ String.ofList (Text.trimEnd (unindented l)) ∧
      r.Pictures (toString l.number).toList (Text.trimEnd (unindented l)) (column l - 1) := by
  generalize hnumber : toString l.number = number
  have hbar : (padLeft ' ' (number.length + 2) "|").toList =
      List.replicate (number.length + 1) ' ' ++ ['|'] := toList_padLeft _ _ _
  have hcaret : (padLeft '-' (column l) "^").toList =
      List.replicate (column l - 1) '-' ++ ['^'] := toList_padLeft _ _ _
  refine ⟨⟨header f, _, padLeft ' ' (number.length + 2) "|", _,
    padLeft ' ' (number.length + 2) "|" ++ " " ++ padLeft '-' (column l) "^"⟩,
    ?_, rfl, rfl, rfl, ?_, ?_, ?_⟩
  · simp [text, picture, hnumber, Rows.text, String.join, String.append_assoc]
  · rw [hbar, String.length_toList]
  · simp
  · rw [String.toList_append, String.toList_append, hbar, hcaret, String.length_toList]
    simp

theorem exists_draws {f : Fault} {source : List Char} {offset : Nat}
    (spot : Text.Spot source offset) (hline : f.line.toNat = spot.line.number)
    (htitle : '\n' ∉ (header f).toList) (hfile : '\n' ∉ f.position.file.toList) :
    ∃ r : Rows, text (header f :: ("-> " ++ f.position.file) :: picture spot.line) = r.text ∧
      r.Draws f spot (Text.trimEnd spot.text) := by
  obtain ⟨r, htext, hr, hplace, hrow, hp⟩ := exists_rows f spot.line
  rw [spot.column_line, Nat.add_sub_cancel] at hp
  rw [spot.trimEnd_line, ← hline] at hrow hp
  have htrimmed := Text.trimmed_trimEnd spot.text
  -- from here on only what `Trimmed` says of the shown text is used
  generalize Text.trimEnd spot.text = shown at hrow hp htrimmed
  have hdigit : ∀ c, c.isDigit = false → c ∉ (toString f.line.toNat).toList :=
    fun c hc => notMem_number hc _
  have hfeed : '\n' ∉ shown := fun hmem =>
    spot.lineFeed_notMem_text (htrimmed.isPrefix.subset hmem)
  obtain ⟨hgutter, hshown, hcaret⟩ := hp.lineFeed_notMem (hdigit _ rfl) hfeed
  refine ⟨r, htext, ?_, ?_, hplace, ⟨_, hp.gutter⟩, hrow, ⟨_, _, hp.caret⟩, htrimmed, ?_, ?_⟩
  · simp only [List.forall_mem_cons, List.not_mem_nil, false_imp_iff, implies_true, and_true]
    refine ⟨by rwa [hr], ?_, hgutter, hshown, hcaret⟩
    rw [hplace]
    simpa using hfile
  · rw [hr, header_eq]
  · exact ⟨_, fun row => hp.idxOf?_bar (hdigit _ rfl)⟩
  · have hcolumn : (toString f.line.toNat ++ " | ").length + spot.lead.length =
        (toString f.line.toNat).toList.length + 3 + spot.lead.length := by
      rw [String.length_append, String.length_toList]
      rfl
    exact ⟨_, hcolumn.symm, hp.idxOf?_caret, hp.count_caret, hp.getElem?_spot htrimmed⟩

/-- The wording of a trouble stands in one row, also where it repeats digits. -/
theorem lineFeed_notMem_header {cause : Cause} {cs text rest : List Char}
    (h : Reads cs ⟨.trouble cause, text, rest⟩) (line : UInt32) (position : Position) :
    '\n' ∉ (header ⟨cause, line, position⟩).toList := by
  cases h with
  | openString | openComment | unexpected => simp [header, Cause.name, Cause.tip]
  | tooLarge hne hd =>
    have hdigits : '\n' ∉ text := fun hmem => absurd (hd _ hmem) (by decide)
    simp [header, Cause.name, Cause.tip, hdigits]

end Diagnostic

namespace Session

variable {s : Session} {front ahead : List Char} {pending : Nat}

theorem Stands.spot_of_fault (h : s.Stands front ahead pending)
    (hfit : s.source.utf8ByteSize + 1 < UInt32.size) {f : Fault} (hf : s.scan.1 = .fault f) :
    Nonempty (Text.Spot s.source.toList f.position.offset.toNat) ∧
      f.position.file = s.settings.file ∧ '\n' ∉ (Diagnostic.header f).toList := by
  have hcall := h.call
  rw [hf] at hcall
  generalize s.scan.2 = s' at hcall
  cases hcall with
  | @fault cause gap cs text rest hs hg hr =>
    refine ⟨?_, rfl, Diagnostic.lineFeed_notMem_header hr _ _⟩
    have hpos := offset_positionAt_eq hs hfit s.settings
    obtain ⟨c, ds, rfl, hc⟩ := Reading.cons_of_trouble hr
    have hspot := Text.exists_spot (front ++ gap) ds hc
    rwa [← hs, ← hpos] at hspot

/-- A fault stands at a spot of the source, whatever was answered before, and unless the caret would
stand too far to the right its diagnostic is five rows that show it there. -/
theorem fault_drawn (h : s.Reachable) (hfit : s.source.utf8ByteSize + 1 < UInt32.size)
    (hfile : '\n' ∉ s.settings.file.toList) {f : Fault} (hf : s.scan.1 = .fault f) :
    f.position.file = s.settings.file ∧
      Nonempty (Text.Spot s.source.toList f.position.offset.toNat) ∧
      ∀ spot : Text.Spot s.source.toList f.position.offset.toNat, spot.lead.length < 65535 →
        ∃ (r : Diagnostic.Rows) (shown : List Char),
          Diagnostic.render? f s.source = some r.text ∧ r.Draws f spot shown := by
  obtain ⟨front, ahead, pending, hs⟩ := h.stands
  obtain ⟨hspot, hname, htitle⟩ := hs.spot_of_fault hfit hf
  have htracked := hs.tracked hfit
  rw [hf] at htracked
  refine ⟨hname, hspot, fun spot hlead => ?_⟩
  have hcolumn : Diagnostic.column spot.line ≤ Diagnostic.widest := by
    rw [spot.column_line]
    exact hlead
  have hline : f.line.toNat = spot.line.number := by
    rw [spot.number_line]
    exact htracked.line
  obtain ⟨r, htext, hdraws⟩ := Diagnostic.exists_draws spot hline htitle (by rwa [hname])
  exact ⟨r, _, by rw [Diagnostic.render?_eq spot.lineAt?_offset hcolumn, htext], hdraws⟩

theorem fault_drawn_snowman :
    let s := (start (.named none true) "☃\n\t \"é\" @ |\r\nx").scan.2.scan.2.scan.2.scan.2
    let f : Fault := ⟨.unexpected '@', 2, ⟨11, "shell"⟩⟩
    s.Reachable ∧ s.source.utf8ByteSize + 1 < UInt32.size ∧ '\n' ∉ s.settings.file.toList ∧
      s.scan.1 = .fault f ∧
      ∃ spot : Text.Spot s.source.toList 11, spot.lead = "\"é\" ".toList ∧
        ∃ (r : Diagnostic.Rows) (shown : List Char),
          Diagnostic.render? f s.source = some r.text ∧ r.Draws f spot shown := by
  intro s f
  have hs : s.Reachable := .scan (.scan (.scan (.scan (.start _ _))))
  have hfit : s.source.utf8ByteSize + 1 < UInt32.size := by decide +kernel
  have hfile : '\n' ∉ s.settings.file.toList := by decide +kernel
  have hf : s.scan.1 = .fault f := by decide +kernel
  let spot : Text.Spot s.source.toList 11 :=
    ⟨"☃\n".toList, "\t ".toList, "\"é\" ".toList, '@', " |\r".toList, "\nx".toList,
      by decide +kernel, by decide +kernel, by simp [Text.Closed], by decide +kernel,
      by decide +kernel, by simp, by simp⟩
  obtain ⟨-, -, hdrawn⟩ := fault_drawn hs hfit hfile hf
  exact ⟨hs, hfit, hfile, hf, spot, rfl, hdrawn spot (by decide +kernel)⟩

example :
    Diagnostic.render? ⟨.unexpected '@', 2, ⟨11, "shell"⟩⟩ "☃\n\t \"é\" @ |\r\nx" =
      some "Error: UnexpectedToken\n-> shell\n  |\n2 | \"é\" @ |\n  | ----^\n" := by
  decide +kernel

end Session

end ScriptScan
