import ScriptScan.Proofs.Calls
import ScriptScan.Proofs.Tracking

/-!
# Words

The tails that may follow a first letter are tried one after the other, but a tail is taken only as
the whole rest of a word, and no tail is listed twice: so which one is taken does not depend on the
order (`Cursor.keyword?_eq_some_iff`). A call in front of a word finds that word from its first
character to its last, of the kind under which the whole word is listed
(`Session.scan_finds_word`).
-/

namespace ScriptScan

open Trivia (Gap Stops)

namespace Reserved

/-- In a list in which no word stands twice, the entry of a word is the one that is found for it. -/
theorem find?_of_mem {entries : List (String × Kind)} (hd : (entries.map (·.1)).Nodup)
    {entry : String × Kind} (h : entry ∈ entries) :
    entries.find? (fun e => e.1.toList == entry.1.toList) = some entry := by
  induction entries with
  | nil => simp at h
  | cons first entries ih =>
    rw [List.map_cons, List.nodup_cons] at hd
    rcases List.mem_cons.1 h with rfl | hmem
    · exact List.find?_cons_of_pos (beq_self_eq_true _)
    · have hne : first.1 ≠ entry.1 := fun heq => hd.1 (heq ▸ List.mem_map_of_mem hmem)
      rw [List.find?_cons_of_neg (by simpa [String.toList_inj] using hne), ih hd.2 hmem]

theorem find?_eq_some_iff_mem {entries : List (String × Kind)} (hd : (entries.map (·.1)).Nodup)
    {word : List Char} {entry : String × Kind} :
    entries.find? (fun e => e.1.toList == word) = some entry ↔
      entry ∈ entries ∧ entry.1.toList = word := by
  constructor
  · intro h
    exact ⟨List.mem_of_find?_eq_some h, by simpa using List.find?_some h⟩
  · rintro ⟨h, rfl⟩
    exact find?_of_mem hd h

theorem nodup_words : (words.map (·.1)).Nodup := by decide

theorem nodup_candidates (c : Char) : ((candidates c).map (·.1)).Nodup := by
  unfold candidates
  split <;> decide

theorem kindOf_eq_boolean_iff {word : List Char} :
    kindOf word = .boolean ↔ word = "true".toList ∨ word = "false".toList := by
  have hwords : ∀ w ∈ words, w.2 = .boolean → w.1 = "true" ∨ w.1 = "false" := by decide
  constructor
  · intro h
    unfold kindOf at h
    rcases hf : words.find? (fun w => w.1.toList == word) with _ | w <;> rw [hf] at h
    · cases h
    · obtain ⟨hmem, rfl⟩ := (find?_eq_some_iff_mem nodup_words).1 hf
      rcases hwords w hmem h with hw | hw
      · exact Or.inl (congrArg String.toList hw)
      · exact Or.inr (congrArg String.toList hw)
  · rintro (rfl | rfl) <;> rfl

end Reserved

/-- A candidate for a first letter is taken exactly if it is the whole rest of the word, wherever it
is listed. -/
theorem Cursor.keyword?_eq_some_iff (front : List Char) {rest : List Char} {c : Char} {kind : Kind}
    {stop : Cursor} :
    (behind front rest).keyword? (Reserved.candidates c) = some (kind, stop) ↔
      ∃ suffix tail, (suffix, kind) ∈ Reserved.candidates c ∧ rest = suffix.toList ++ tail ∧
        Stops isWordPart tail ∧ stop = (behind front rest).advance suffix.utf8ByteSize := by
  -- all that is found is the entry of the whole rest of the word, which is passed
  have hstop {suffix : String} {tail : List Char} (h : (suffix, kind) ∈ Reserved.candidates c) :
      (behind front (suffix.toList ++ tail)).advance suffix.utf8ByteSize =
        behind (front ++ suffix.toList) tail := by
    rw [← Text.width_toList]
    exact advance_behind front tail fun hmem =>
      absurd (Reserved.isWordPart_of_mem_candidates h _ hmem) (by decide)
  rw [keyword?_behind front _ fun p => Reserved.isWordPart_of_mem_candidates,
    Option.map_eq_some_iff]
  constructor
  · rintro ⟨⟨suffix, kind'⟩, hfind, heq⟩
    obtain ⟨hmem, hword⟩ := (Reserved.find?_eq_some_iff_mem (Reserved.nodup_candidates c)).1 hfind
    cases heq
    have hrest : rest = suffix.toList ++ rest.dropWhile isWordPart := by
      rw [hword, List.takeWhile_append_dropWhile]
    refine ⟨suffix, rest.dropWhile isWordPart, hmem, hrest, Trivia.stops_dropWhile _ _, ?_⟩
    conv => rhs; rw [hrest, hstop hmem]
    rw [hword]
  · rintro ⟨suffix, tail, hmem, rfl, hr, rfl⟩
    have hparts := Reserved.isWordPart_of_mem_candidates hmem
    rw [List.takeWhile_append_of_pos hparts, List.dropWhile_append_of_pos hparts, hr.takeWhile,
      hr.dropWhile, List.append_nil, hstop hmem]
    exact ⟨_, (Reserved.find?_eq_some_iff_mem (Reserved.nodup_candidates c)).2 ⟨hmem, rfl⟩, rfl⟩

/-- What a word denotes is told by the word alone: a truth value, or nothing. -/
theorem Kind.valueOf_kindOf (word : List Char) :
    (Reserved.kindOf word).valueOf word =
      if word = "true".toList then some (.boolean true)
      else if word = "false".toList then some (.boolean false) else none := by
  by_cases hb : Reserved.kindOf word = .boolean
  · rw [hb]
    rcases Reserved.kindOf_eq_boolean_iff.1 hb with rfl | rfl <;> rfl
  · have hk := isWord_kindOf word
    have hnot := mt Reserved.kindOf_eq_boolean_iff.2 hb
    rw [not_or] at hnot
    rw [if_neg hnot.1, if_neg hnot.2]
    cases hkind : Reserved.kindOf word <;> simp_all [valueOf, isWord]

/-- Every text that begins like a word is a whole word and what stands behind it. -/
theorem exists_word {c : Char} (hc : isWordStart c = true) (rest : List Char) :
    ∃ word behind, c :: rest = word ++ behind ∧ IsWord word ∧ Stops isWordPart behind ∧
      Stops (Reading.grows word) behind := by
  have hstops := Trivia.stops_dropWhile isWordPart rest
  refine ⟨c :: rest.takeWhile isWordPart, rest.dropWhile isWordPart, ?_, ?_, hstops, ?_⟩
  · rw [List.cons_append, List.takeWhile_append_dropWhile]
  · exact ⟨c, _, rfl, hc, List.all_eq_true.1 List.all_takeWhile⟩
  · rwa [Reading.grows_of_isWordStart hc]

/-- Behind the trivia in front of a word and its first character. -/
theorem Cursor.advance_skipTrivia_word (front : List Char) {gap rest : List Char} {c : Char}
    (hg : Gap gap (c :: rest)) (hc : isWordStart c = true) :
    (behind front (gap ++ c :: rest)).skipTrivia.1.advance 1 =
      behind (front ++ gap ++ [c]) rest := by
  have hpart : isWordPart c = true := by rw [isWordPart_eq, hc, Bool.true_or]
  have hslash : c ≠ '/' := by
    rintro rfl
    exact absurd hc (by decide)
  have hn := Reading.piece?_of_begins ((begins_iff c).2 (Or.inl hc)) hslash rest
  have ho : ¬ ['/', '*'] <+: c :: rest := fun h => hslash (List.cons_prefix_cons.1 h).1.symm
  obtain ⟨hlt, hfeed⟩ := lt_of_isWordPart hpart
  rw [skipTrivia_gap front hg, skipTrivia_stop _ hn ho, advance_one _ rest hlt hfeed]

theorem IsWord.isWordPart {word : List Char} (h : IsWord word) :
    ∀ d ∈ word, isWordPart d = true := by
  obtain ⟨c, tail, rfl, hc, ht⟩ := h
  rw [List.forall_mem_cons, isWordPart_eq, hc]
  exact ⟨rfl, ht⟩

/-- A token over the whole word with which a text begins, in front of what stands `behind` the
word. Its kind and value are those of the whole word. -/
structure Token.WholeWord (t : Token) (cs behind : List Char) : Prop where
  append : cs = t.lexeme.toList ++ behind
  parts : ∀ d ∈ t.lexeme.toList, isWordPart d = true
  stops : Stops isWordPart behind
  kind : t.kind = Reserved.kindOf t.lexeme.toList
  value : t.value = if t.lexeme = "true" then some (.boolean true)
    else if t.lexeme = "false" then some (.boolean false) else none

theorem wholeWord_tokenAt (s : Settings) (front : List Char) {word behind : List Char}
    (hw : IsWord word) (hr : Stops isWordPart behind) :
    (s.tokenAt (Reserved.kindOf word) front word).WholeWord (word ++ behind) behind := by
  have hlexeme (text : String) : String.ofList word = text ↔ word = text.toList := by
    rw [← String.toList_inj, String.toList_ofList]
  refine ⟨?_, ?_, hr, ?_, ?_⟩ <;> simp only [Settings.tokenAt, String.toList_ofList]
  · exact hw.isWordPart
  · rw [Kind.valueOf_kindOf]
    simp only [hlexeme]

namespace Session

/-- A call in front of a word, with nothing but trivia before it, finds the whole word, with the
kind and value that it has as a word, and leaves what stands behind it. Behind the first letter of
it a candidate is taken only as the whole rest of the word, whatever is tried before it. -/
theorem scan_finds_word {s : Session} (h : s.Reachable)
    (hfit : s.source.utf8ByteSize + 1 < UInt32.size) {gap rest : List Char} {c : Char}
    (ha : s.ahead? = some (gap ++ c :: rest)) (hg : Gap gap (c :: rest))
    (hc : isWordStart c = true) :
    ∃ (t : Token) (behind : List Char), s.scan.1 = .token t ∧ t.WholeWord (c :: rest) behind ∧
      t.startsAt = s.offset + Text.width gap ∧ t.stopsAt = s.scan.2.offset ∧
      s.scan.2.ahead? = some behind ∧
      ∀ kind stop, (s.cursor.skipTrivia.1.advance 1).keyword? (Reserved.candidates c) =
          some (kind, stop) ↔
        ∃ suffix tail, (suffix, kind) ∈ Reserved.candidates c ∧ rest = suffix.toList ++ tail ∧
          Stops isWordPart tail ∧
          stop = (s.cursor.skipTrivia.1.advance 1).advance suffix.utf8ByteSize := by
  obtain ⟨front, ahead, pending, hst⟩ := h.stands
  rw [hst.ahead?_eq] at ha
  split at ha
  · rename_i hp
    subst hp
    obtain rfl : ahead = gap ++ c :: rest := Option.some.inj ha
    obtain ⟨word, behind, hword, hw, hr, hgrows⟩ := exists_word hc rest
    have hletter : s.cursor.skipTrivia.1.advance 1 = .behind (front ++ gap ++ [c]) rest := by
      rw [hst.cursor_eq]
      exact Cursor.advance_skipTrivia_word front hg hc
    rw [hletter]
    rw [hword] at hg hst ⊢
    have hform := (Kind.form_of_isWord (Kind.isWord_kindOf word)).2 ⟨hw, rfl⟩
    have hscan := Cursor.scan_lexeme front s.settings hg hform hgrows
    have hsource : s.source.toList = front ++ gap ++ word ++ behind := by
      rw [hst.source]
      simp
    have hnext := stands_behind s (front ++ gap ++ word) behind
    have hstop := offset_positionAt_eq hsource hfit s.settings
    rw [List.append_assoc _ word] at hsource
    have hstart := offset_positionAt_eq hsource hfit s.settings
    rw [scan, hst.cursor_eq, hscan]
    refine ⟨_, behind, rfl, wholeWord_tokenAt _ _ hw hr, ?_, ?_, ?_,
      fun _ _ => Cursor.keyword?_eq_some_iff _⟩
    · rw [Token.startsAt, Settings.tokenAt, hstart, Text.width_append, ← hst.offset, Nat.add_zero]
    · rw [Token.stopsAt, Settings.tokenAt, hstop]
      rfl
    · exact hnext.ahead?_eq
  · cases ha

theorem scan_finds_word_letter :
    let s := (start (.named none true) "let/*é*/letter☃").scan.2
    let gap := ['/', '*', 'é', '*', '/']
    let rest := "etter☃".toList
    s.Reachable ∧ s.source.utf8ByteSize + 1 < UInt32.size ∧ s.ahead? = some (gap ++ 'l' :: rest) ∧
      Gap gap ('l' :: rest) ∧ isWordStart 'l' = true ∧
      ∃ (t : Token) (behind : List Char), s.scan.1 = .token t ∧ t.WholeWord ('l' :: rest) behind ∧
        t.startsAt = s.offset + Text.width gap ∧ s.scan.2.ahead? = some behind := by
  intro s gap rest
  have hs : s.Reachable := .scan (.start _ _)
  have hfit : s.source.utf8ByteSize + 1 < UInt32.size := by decide +kernel
  have ha : s.ahead? = some (gap ++ 'l' :: rest) := by decide +kernel
  have hbody : ¬ ['*', '/'] <:+: ['é', '*'] := by decide
  have hg : Gap gap ('l' :: rest) := .cons (@Trivia.Piece.block ['é'] _ hbody) .nil
  obtain ⟨t, behind, ht, hword, hstart, -, hbehind, -⟩ := scan_finds_word hs hfit ha hg rfl
  exact ⟨hs, hfit, ha, hg, rfl, t, behind, ht, hword, hstart, hbehind⟩

end Session

end ScriptScan
