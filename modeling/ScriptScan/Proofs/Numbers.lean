import ScriptScan.Proofs.Calls
import ScriptScan.Proofs.Tracking

/-!
# Number literals

A run of digits is the decimal form of its value behind some zeros (`Numeral.exists_padded`), and
the zeros count for nothing: reading stops early only where the value itself is too large. So a call
in front of a run finds a number of that value or, above the largest one, a fault with the whole
run, and either way leaves what stands behind the run (`Session.scan_finds_number`).
-/

namespace ScriptScan

open Text (lineFeeds)
open Trivia (Gap Stops)
open Reading (Reads)

namespace Numeral

/-- The decimal digits of `n` behind `k` zeros. -/
def padded (k n : Nat) : List Char := List.replicate k '0' ++ Nat.toDigits 10 n

theorem padded_ne_nil (k n : Nat) : padded k n ≠ [] := by
  simp [padded, Nat.toDigits_ne_nil]

theorem isDigit_of_mem_padded {k n : Nat} {d : Char} (h : d ∈ padded k n) : d.isDigit = true := by
  rcases List.mem_append.1 h with h | h
  · rw [List.eq_of_mem_replicate h]
    rfl
  · exact Nat.isDigit_of_mem_toDigits (by decide) (by decide) h

theorem ofDigitChars_padded (k n : Nat) : Nat.ofDigitChars 10 (padded k n) 0 = n := by
  rw [padded, Nat.ofDigitChars_append, Nat.ofDigitChars_replicate_zero, Nat.mul_zero,
    Nat.ofDigitChars_ten_toDigits]

theorem width_padded (k n : Nat) :
    Text.width (padded k n) = k + Text.width (Nat.toDigits 10 n) := by
  have hzero : '0'.utf8Size = 1 := rfl
  rw [padded, Text.width_append, Text.width_replicate, hzero, Nat.mul_one]

theorem toInt_ofNat {n : Nat} (h : n ≤ largest) : (Int64.ofNat n).toInt = n :=
  Int64.toInt_ofNat_of_lt (Nat.lt_succ_of_le h)

theorem exists_digitChar {d : Char} (h : d.isDigit = true) : ∃ v, v < 10 ∧ v.digitChar = d := by
  rw [Char.isDigit_iff_toNat] at h
  change 48 ≤ d.toNat ∧ d.toNat ≤ 57 at h
  refine ⟨d.toNat - 48, by omega, Char.toNat_inj.1 ?_⟩
  rw [Nat.toNat_digitChar_of_lt_ten (by omega)]
  omega

/-- A digit behind nothing but zeros is the first that counts. -/
theorem padded_append_digitChar (k n : Nat) {v : Nat} (hv : v < 10) :
    padded k n ++ [v.digitChar] = if n = 0 then padded (k + 1) v else padded k (10 * n + v) := by
  rw [padded, List.append_assoc, ← Nat.toDigits_of_lt_base hv]
  split
  · rename_i hn
    rw [hn, Nat.toDigits_zero, padded, List.replicate_succ', List.append_assoc]
  · rename_i hn
    rw [Nat.toDigits_append_toDigits (by decide) (by omega) hv, padded]

/-- Every run of digits is the decimal form of a number behind some zeros. -/
theorem exists_padded {digits : List Char} (hne : digits ≠ [])
    (hd : ∀ d ∈ digits, d.isDigit = true) : ∃ k n, digits = padded k n := by
  rcases List.eq_nil_or_concat digits with rfl | ⟨init, d, rfl⟩
  · exact absurd rfl hne
  · rw [List.concat_eq_append] at hd ⊢
    obtain ⟨v, hv, rfl⟩ := exists_digitChar (hd d (by simp))
    rcases Classical.em (init = []) with rfl | hinit
    · exact ⟨0, v, by simp [padded, Nat.toDigits_of_lt_base hv]⟩
    · obtain ⟨k, n, rfl⟩ := exists_padded hinit fun d hmem => hd d (List.mem_append_left _ hmem)
      rw [padded_append_digitChar k n hv]
      split
      · exact ⟨k + 1, v, rfl⟩
      · exact ⟨k, 10 * n + v, rfl⟩
termination_by digits.length

end Numeral

namespace Session

variable {s : Session} {front gap digits rest : List Char}

/-- A call in front of a run of digits passes the whole run, whatever it denotes. -/
theorem Stands.scan_digits (h : s.Stands front (gap ++ (digits ++ rest)) 0)
    (hg : Gap gap (digits ++ rest)) (hne : digits ≠ []) (hd : ∀ d ∈ digits, d.isDigit = true)
    (hr : Stops Char.isDigit rest) :
    s.scan.2 = { s with cursor := .behind (front ++ gap ++ digits) rest } ∧
      s.scan.1 = if Nat.ofDigitChars 10 digits 0 ≤ Numeral.largest then
          .token (s.settings.tokenAt .number (front ++ gap) digits)
        else
          .fault (s.settings.faultAt (.numberTooLarge (String.ofList digits)) (front ++ gap)) := by
  split
  · rename_i hle
    have hform : Kind.Form .number digits := ⟨hne, hd, hle⟩
    obtain ⟨d, ds, hcons⟩ := List.exists_cons_of_ne_nil hne
    have hgrows : Reading.grows digits = Char.isDigit := by
      rw [hcons]
      exact Reading.grows_of_isDigit (hd d (by simp [hcons])) ds
    have hscan := Cursor.scan_lexeme front s.settings hg hform (by rwa [hgrows])
    rw [Session.scan, h.cursor_eq, hscan]
    exact ⟨rfl, rfl⟩
  · rename_i hlt
    have hread := Reads.tooLarge hne hd hr (Nat.lt_of_not_le hlt)
    have hscan := Cursor.scan_trouble front s.settings hg hread (by simp)
    rw [Session.scan, h.cursor_eq, hscan]
    exact ⟨rfl, rfl⟩

/-- A call in front of the decimal form of `n` with zeros before it, and nothing but trivia before
those, finds the number `n` or fails because it is too large; how many zeros there are makes no
difference. The call leaves what stands behind the digits, on the line on which they stand. -/
theorem scan_finds_number {s : Session} (h : s.Reachable)
    (hfit : s.source.utf8ByteSize + 1 < UInt32.size) {gap rest : List Char} {k n : Nat}
    (ha : s.ahead? = some (gap ++ (Numeral.padded k n ++ rest)))
    (hg : Gap gap (Numeral.padded k n ++ rest)) (hr : Stops Char.isDigit rest) :
    (n ≤ 9223372036854775807 → ∃ (t : Token) (v : Int64), s.scan.1 = .token t ∧
      t.kind = .number ∧ t.lexeme = String.ofList (Numeral.padded k n) ∧
      t.value = some (.number v) ∧ v.toInt = n ∧ t.startsAt = s.offset + Text.width gap ∧
      t.stopsAt = s.scan.2.offset ∧ t.startLine = s.scan.2.cursor.line ∧
      t.endLine = s.scan.2.cursor.line) ∧
    (9223372036854775807 < n → ∃ f, s.scan.1 = .fault f ∧
      f.cause = .numberTooLarge (String.ofList (Numeral.padded k n)) ∧
      f.position.offset.toNat = s.offset + Text.width gap ∧ f.line = s.scan.2.cursor.line) ∧
    s.scan.2.ahead? = some rest ∧
    s.scan.2.offset = s.offset + Text.width gap + Text.width (Numeral.padded k n) ∧
    s.scan.2.cursor.line.toNat = 1 + lineFeeds s.source (s.offset + Text.width gap) := by
  obtain ⟨front, ahead, pending, hst⟩ := h.stands
  rw [hst.ahead?_eq] at ha
  split at ha
  · rename_i hp
    subst hp
    obtain rfl : ahead = gap ++ (Numeral.padded k n ++ rest) := Option.some.inj ha
    have hdigit : ∀ d ∈ Numeral.padded k n, d.isDigit = true :=
      fun d => Numeral.isDigit_of_mem_padded
    have hfeed : '\n' ∉ Numeral.padded k n := fun hmem => absurd (hdigit _ hmem) (by decide)
    have hvalue := Numeral.ofDigitChars_padded k n
    obtain ⟨hnext, hanswer⟩ := hst.scan_digits hg (Numeral.padded_ne_nil k n) hdigit hr
    -- of the digits only their value is used from here on, and that no line ends among them
    generalize Numeral.padded k n = digits at *
    have hsource : s.source.toList = front ++ gap ++ digits ++ rest := by simp [hst.source]
    have hstands : s.scan.2.Stands (front ++ gap ++ digits) rest 0 :=
      hnext ▸ stands_behind s _ _
    have hstop := offset_positionAt_eq hsource hfit s.settings
    rw [List.append_assoc _ digits] at hsource
    have hstart := offset_positionAt_eq hsource hfit s.settings
    have hpos : s.offset + Text.width gap = Text.width (front ++ gap) := by
      rw [Text.width_append, ← hst.offset, Nat.add_zero]
    have hend := lineAt_append (front ++ gap) hfeed
    have hoff : s.scan.2.offset = Text.width (front ++ gap ++ digits) := hstands.offset
    rw [hpos, hstands.line, hend, hoff, hstands.ahead?_eq, if_pos rfl]
    refine ⟨fun hle => ?_, fun hlt => ?_, rfl, Text.width_append _ _,
      lineAt_eq_lineFeeds hsource hfit⟩
    · rw [hvalue, Numeral.largest, if_pos hle] at hanswer
      refine ⟨_, _, hanswer, rfl, rfl, rfl, ?_, hstart, hstop, rfl, hend⟩
      rw [hvalue, Numeral.toInt_ofNat hle]
    · rw [hvalue, Numeral.largest, if_neg (Nat.not_le_of_lt hlt)] at hanswer
      exact ⟨_, hanswer, rfl, hstart, rfl⟩
  · cases ha

theorem scan_finds_number_largest :
    let gap := ['/', '*', '☃', '*', '/']
    let s := (start (.named none false) "\"é\n\"/*☃*/0009223372036854775807;").scan.2
    let u := (start (.named none true) "\"é\n\"/*☃*/0009223372036854775808;").scan.2
    s.Reachable ∧ s.source.utf8ByteSize + 1 < UInt32.size ∧
      s.ahead? = some (gap ++ (Numeral.padded 3 9223372036854775807 ++ [';'])) ∧
      Gap gap (Numeral.padded 3 9223372036854775807 ++ [';']) ∧ Stops Char.isDigit [';'] ∧
      (∃ (t : Token) (v : Int64), s.scan.1 = .token t ∧ t.value = some (.number v) ∧
        v.toInt = 9223372036854775807 ∧ t.startsAt = s.offset + Text.width gap) ∧
      u.ahead? = some (gap ++ (Numeral.padded 3 9223372036854775808 ++ [';'])) ∧
      ∃ f, u.scan.1 = .fault f ∧ f.cause = .numberTooLarge "0009223372036854775808" := by
  intro gap s u
  have hs : s.Reachable := .scan (.start _ _)
  have hu : u.Reachable := .scan (.start _ _)
  have hfit : s.source.utf8ByteSize + 1 < UInt32.size := by decide +kernel
  have hs' : s.ahead? = some (gap ++ (Numeral.padded 3 9223372036854775807 ++ [';'])) := by
    decide +kernel
  have hu' : u.ahead? = some (gap ++ (Numeral.padded 3 9223372036854775808 ++ [';'])) := by
    decide +kernel
  have hbody : ¬ ['*', '/'] <:+: ['☃', '*'] := by decide
  have hg (rest : List Char) : Gap gap rest := .cons (@Trivia.Piece.block ['☃'] _ hbody) .nil
  have hr : Stops Char.isDigit [';'] := by simp [Stops]
  obtain ⟨htoken, -⟩ := scan_finds_number hs hfit hs' (hg _) hr
  obtain ⟨-, hfault, -⟩ := scan_finds_number hu (by decide +kernel) hu' (hg _) hr
  obtain ⟨t, v, ht, -, -, hvalue, hv, hstart, -⟩ := htoken (by decide)
  obtain ⟨f, hf, hcause, -⟩ := hfault (by decide)
  exact ⟨hs, hfit, hs', hg _, hr, ⟨t, v, ht, hvalue, hv, hstart⟩, hu', f, hf, hcause⟩

end Session

end ScriptScan
