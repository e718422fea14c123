import ScriptScan.Text.Cut
import ScriptScan.Text.Width

/-!
# Bytes of a source

A source in UTF-8, byte by byte: a line feed is a byte of its own and never part of another
character (`Text.count_bytes`), so lines may be counted in bytes (`Text.lineFeeds_of_append`), also
in front of a byte inside a character (`Text.lineFeeds_of_inside`). The offsets at which a source
can be cut are its character boundaries (`Text.isValid_iff_drop?`). A character below 128 is seen as
itself, and all bytes of another are from 128 on (`Text.byte?_of_lt`, `Text.byte?_of_le`).
-/

namespace ScriptScan.Text

def bytes (cs : List Char) : List UInt8 := cs.flatMap String.utf8EncodeChar

/-- The line feeds among the first `n` bytes of a source. -/
def lineFeeds (source : String) (n : Nat) : Nat :=
  (source.toByteArray.data.toList.take n).count 10

@[simp] theorem bytes_cons (c : Char) (cs : List Char) :
    bytes (c :: cs) = String.utf8EncodeChar c ++ bytes cs :=
  List.flatMap_cons

theorem bytes_append (cs ds : List Char) : bytes (cs ++ ds) = bytes cs ++ bytes ds :=
  List.flatMap_append

theorem bytes_toList (source : String) : bytes source.toList = source.toByteArray.data.toList := by
  rw [← String.utf8Encode_toList, List.utf8Encode, List.toList_data_toByteArray, bytes]

theorem length_bytes (cs : List Char) : (bytes cs).length = width cs := by
  induction cs with
  | nil => rfl
  | cons c cs ih => simp [ih]

theorem le_of_mem_utf8EncodeChar {c : Char} (hc : 128 ≤ c.val.toNat) {b : UInt8}
    (hb : b ∈ String.utf8EncodeChar c) : 128 ≤ b.toNat := by
  have hnot : ¬ c.val.toNat ≤ 127 := by omega
  unfold String.utf8EncodeChar at hb
  simp only [hnot, if_false] at hb
  split at hb
  · simp only [List.mem_cons, List.not_mem_nil, or_false] at hb
    rcases hb with rfl | rfl <;> rw [UInt8.toNat_ofNat'] <;> omega
  · split at hb
    · simp only [List.mem_cons, List.not_mem_nil, or_false] at hb
      rcases hb with rfl | rfl | rfl <;> rw [UInt8.toNat_ofNat'] <;> omega
    · simp only [List.mem_cons, List.not_mem_nil, or_false] at hb
      rcases hb with rfl | rfl | rfl | rfl <;> rw [UInt8.toNat_ofNat'] <;> omega

/-- Only the line feed has the byte of one in its encoding. -/
theorem notMem_utf8EncodeChar {c : Char} (hc : c ≠ '\n') : 10 ∉ String.utf8EncodeChar c := by
  intro hb
  by_cases hsmall : c.val.toNat ≤ 127
  · unfold String.utf8EncodeChar at hb
    simp only [hsmall, if_true, List.mem_singleton] at hb
    have hval := congrArg UInt8.toNat hb
    rw [UInt8.toNat_ofNat'] at hval
    have h10 : (10 : UInt8).toNat = 10 := rfl
    refine hc (Char.ext (UInt32.toNat_inj.1 ?_))
    show c.val.toNat = 10
    omega
  · have := le_of_mem_utf8EncodeChar (by omega) hb
    exact absurd this (by decide)

theorem count_utf8EncodeChar (c : Char) :
    (String.utf8EncodeChar c).count 10 = [c].count '\n' := by
  by_cases hc : c = '\n'
  · subst hc
    rfl
  · rw [List.count_eq_zero_of_not_mem (notMem_utf8EncodeChar hc), List.count_cons_of_ne hc]
    rfl

theorem count_bytes (cs : List Char) : (bytes cs).count 10 = cs.count '\n' := by
  induction cs with
  | nil => rfl
  | cons c cs ih =>
    rw [bytes_cons, List.count_append, ih, count_utf8EncodeChar, ← List.count_append,
      List.singleton_append]

theorem lineFeeds_le (source : String) (n : Nat) : lineFeeds source n ≤ n :=
  Nat.le_trans List.count_le_length (List.length_take_le n _)

theorem lineFeeds_of_append {source : String} {front ahead : List Char}
    (h : source.toList = front ++ ahead) : lineFeeds source (width front) = front.count '\n' := by
  rw [lineFeeds, ← bytes_toList, h, bytes_append, List.take_left' (length_bytes front), count_bytes]

/-- No line feed stands inside a character. -/
theorem lineFeeds_of_inside {source : String} {init rest : List Char} {c : Char}
    (h : source.toList = init ++ c :: rest) (hc : c ≠ '\n') {k : Nat} (hk : k ≤ c.utf8Size) :
    lineFeeds source (width init + k) = init.count '\n' := by
  have hnone : ((String.utf8EncodeChar c).take k).count 10 = 0 :=
    List.count_eq_zero_of_not_mem fun hb => notMem_utf8EncodeChar hc (List.mem_of_mem_take hb)
  have hlen : k ≤ (String.utf8EncodeChar c).length := by rwa [String.length_utf8EncodeChar]
  rw [lineFeeds, ← bytes_toList, h, bytes_append, bytes_cons, ← length_bytes init,
    List.take_length_add_append, List.take_append_of_le_length hlen, List.count_append, hnone,
    count_bytes, Nat.add_zero]

theorem isValid_iff_drop? {source : String} {n : Nat} :
    (String.Pos.Raw.mk n).IsValid source ↔ ∃ rest, drop? source.toList n = some rest := by
  simp only [drop?_eq_some_iff]
  constructor
  · intro h
    have hle := h.le_utf8ByteSize
    obtain ⟨front, rest, hfront, rfl⟩ := h.exists
    refine ⟨rest, front, String.toList_ofList, ?_⟩
    rw [width_ofList, ← String.size_toByteArray, String.toByteArray_ofList, hfront,
      ByteArray.size_extract, String.size_toByteArray, Nat.sub_zero]
    exact Nat.min_eq_left hle
  · rintro ⟨rest, front, hs, rfl⟩
    obtain rfl : source = String.ofList front ++ String.ofList rest := by
      rw [← String.ofList_append, ← hs, String.ofList_toList]
    rw [width_ofList]
    exact String.Pos.Raw.isValid_rawEndPos.append_right _

/-! ## What is seen and cut of a source -/

theorem utf8EncodeChar_of_lt {c : Char} (h : c.toNat < 128) :
    String.utf8EncodeChar c = [UInt8.ofNat c.toNat] := by
  have hle : c.val.toNat ≤ 127 := Nat.le_of_lt_succ h
  simp only [String.utf8EncodeChar, hle, if_true]
  rfl

theorem utf8Size_of_lt {c : Char} (h : c.toNat < 128) : c.utf8Size = 1 := by
  rw [← String.length_utf8EncodeChar, utf8EncodeChar_of_lt h, List.length_singleton]

theorem toNat_ofUInt8 (b : UInt8) : (Char.ofUInt8 b).toNat = b.toNat := UInt8.toNat_toUInt32 b

theorem byte?_eq (source : String) (i : Nat) :
    byte? source i = (bytes source.toList)[i]?.map Char.ofUInt8 := by
  have hsize : source.toByteArray.data.toList.length = source.utf8ByteSize := rfl
  rw [bytes_toList]
  unfold byte?
  split <;> rename_i h
  · rw [List.getElem?_eq_getElem (by rwa [hsize]), Option.map_some]
    rfl
  · rw [List.getElem?_eq_none (by omega), Option.map_none]

section Places

variable {source : String} {front ahead : List Char}

theorem byte?_eq_none (h : source.toList = front) : byte? source (width front) = none := by
  rw [byte?_eq, h, List.getElem?_eq_none (Nat.le_of_eq (length_bytes front))]
  rfl

theorem byte?_within {c : Char} (h : source.toList = front ++ c :: ahead) {k : Nat}
    (hk : k < c.utf8Size) :
    byte? source (width front + k) = (String.utf8EncodeChar c)[k]?.map Char.ofUInt8 := by
  have hlt : k < (String.utf8EncodeChar c).length := by rwa [String.length_utf8EncodeChar]
  rw [byte?_eq, h, bytes_append, bytes_cons, ← length_bytes front,
    List.getElem?_append_right (Nat.le_add_right _ _), Nat.add_sub_cancel_left,
    List.getElem?_append_left hlt]

/-- A character below 128 is its own byte. -/
theorem byte?_of_lt {c : Char} (h : source.toList = front ++ c :: ahead) (hc : c.toNat < 128) :
    byte? source (width front) = some c := by
  have hbyte := byte?_within h (k := 0) c.utf8Size_pos
  rw [utf8EncodeChar_of_lt hc] at hbyte
  refine hbyte.trans (congrArg some (Char.ext (UInt32.toNat_inj.1 ?_)))
  show (Char.ofUInt8 (UInt8.ofNat c.toNat)).toNat = c.toNat
  rw [toNat_ofUInt8, UInt8.toNat_ofNat']
  exact Nat.mod_eq_of_lt (by omega)

/-- All bytes of a character from 128 on are from 128 on. -/
theorem byte?_of_le {c : Char} (h : source.toList = front ++ c :: ahead) (hc : 128 ≤ c.toNat)
    {k : Nat} (hk : k < c.utf8Size) :
    ∃ d, byte? source (width front + k) = some d ∧ 128 ≤ d.toNat := by
  have hlt : k < (String.utf8EncodeChar c).length := by rwa [String.length_utf8EncodeChar]
  rw [byte?_within h hk, List.getElem?_eq_getElem hlt]
  refine ⟨_, rfl, ?_⟩
  rw [toNat_ofUInt8]
  exact le_of_mem_utf8EncodeChar hc (List.getElem_mem hlt)

theorem isValid_of_append (h : source.toList = front ++ ahead) :
    (String.Pos.Raw.mk (width front)).IsValid source :=
  isValid_iff_drop?.2 ⟨ahead, by rw [h, drop?_append]⟩

theorem first?_of_cons {c : Char} (h : source.toList = front ++ c :: ahead) :
    first? source (width front) = some c := by
  have hvalid := isValid_of_append h
  have hsource : source = String.ofList front ++ (String.singleton c ++ String.ofList ahead) := by
    rw [String.singleton_eq_ofList, ← String.ofList_append, ← String.ofList_append,
      List.singleton_append, ← h, String.ofList_toList]
  have hsplits : (String.Pos.mk _ hvalid).Splits (String.ofList front)
      (String.singleton c ++ String.ofList ahead) :=
    ⟨hsource, String.Pos.Raw.ext (width_ofList front)⟩
  have hp : String.Pos.mk _ hvalid ≠ source.endPos := hsplits.ne_endPos_of_singleton
  rw [first?, dif_pos hvalid]
  exact congrArg some ((dif_neg hp).trans hsplits.next.get_eq_of_singleton)

theorem first?_inside {c : Char} (h : source.toList = front ++ c :: ahead) {k : Nat} (hk : 0 < k)
    (hlt : k < c.utf8Size) : first? source (width front + k) = none := by
  have hvalid : ¬ (String.Pos.Raw.mk (width front + k)).IsValid source := by
    rw [isValid_iff_drop?, h, drop?_inside front c ahead hk hlt]
    simp
  exact dif_neg hvalid

theorem cut?_of_append {text rest : List Char} (h : source.toList = front ++ text ++ rest) :
    cut? source (width front) (width (front ++ text)) = some (String.ofList text) := by
  have hstop := isValid_of_append h
  have hstart : (String.Pos.Raw.mk (width front)).IsValid source :=
    isValid_of_append (h.trans (List.append_assoc _ _ _))
  have hle : width front ≤ width (front ++ text) := by
    rw [width_append]
    exact Nat.le_add_right _ _
  rw [cut?, dif_pos ⟨hle, hstart, hstop⟩]
  have hbytes : source.toByteArray = (String.ofList front).toByteArray ++
      ((String.ofList text).toByteArray ++ (String.ofList rest).toByteArray) := by
    rw [← String.toByteArray_append, ← String.toByteArray_append, ← String.ofList_append,
      ← String.ofList_append, ← List.append_assoc, ← h, String.ofList_toList]
  refine congrArg some (String.toByteArray_inj.1 ?_)
  rw [String.toByteArray_extract, hbytes]
  show (_ ++ _ : ByteArray).extract (width front + 0) (width (front ++ text)) = _
  rw [width_append, ByteArray.extract_append_size_add' (width_ofList front),
    ByteArray.extract_append_eq_left (width_ofList text)]

end Places

end ScriptScan.Text
