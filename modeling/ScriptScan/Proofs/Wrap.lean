import ScriptScan.Proofs.Bytes
import ScriptScan.Proofs.Partition

/-!
# Offsets beyond 32 bits

Offsets are counted without a bound but told as words of 32 bits. Whatever the size of a source, the
tokens of a strict run stand in it in order, each over its own lexeme, and each tells of its offsets
what fits into a word (`Run.Wraps`). So all that a run tells is true if the offset at which it ends
is a word, and only then (`run_offsets_wrap`).
-/

namespace ScriptScan

open Text (lineFeeds)
open Trivia (Gap)

/-- A token over the bytes from `start` to `stop` of a source. Its lines are those at both offsets,
and of the offsets it tells the lowest 32 bits. -/
structure Token.Over (source : String) (t : Token) (start stop : Nat) : Prop where
  slice : Text.slice? source.toList start stop = some t.lexeme.toList
  starts : t.span.start.offset = UInt32.ofNat start
  stops : t.span.stop.offset = UInt32.ofNat stop
  startLine : t.startLine.toNat = 1 + lineFeeds source start
  endLine : t.endLine.toNat = 1 + lineFeeds source stop
  ends : t.isEnd = true → start = source.utf8ByteSize ∧ stop = source.utf8ByteSize

/-- Tokens that stand one after the other from byte `n` to byte `m` of a source, with trivia in
front of each, whatever offsets they tell. -/
def Placed (source : String) : Nat → List Token → Nat → Prop
  | n, [], m => n = m
  | n, t :: ts, m => ∃ start stop,
    GapBetween source.toList n start ∧ t.Over source start stop ∧ Placed source stop ts m

/-- A run from byte `n` of a source up to byte `last`, where it found the end of the input or a
fault. -/
structure Run.Wraps (source : String) (n last : Nat) (run : Run) : Prop where
  placed : ∃ m, Placed source n run.tokens m ∧ GapBetween source.toList m last
  ended : run.fault = none →
    last = source.utf8ByteSize ∧ ∃ t ∈ run.tokens, t.isEnd = true
  failed : ∀ f, run.fault = some f → Event.failed f last ∈ run.events ∧
    f.position.offset = UInt32.ofNat last ∧ f.line.toNat = 1 + lineFeeds source last
  logged : ∀ f offset, Event.failed f offset ∈ run.events → run.fault = some f ∧ offset = last

/-- The offsets that a run tells are those at which it found its tokens and its fault. -/
structure Run.TellsOffsets (source : String) (run : Run) : Prop where
  slices : ∀ t ∈ run.tokens,
    Text.slice? source.toList t.startsAt t.stopsAt = some t.lexeme.toList
  ascends : (run.tokens.flatMap fun t => [t.startsAt, t.stopsAt]).Pairwise (· ≤ ·)
  ends : ∀ t ∈ run.tokens, t.isEnd = true →
    t.startsAt = source.utf8ByteSize ∧ t.stopsAt = source.utf8ByteSize
  failed : ∀ f offset, Event.failed f offset ∈ run.events → f.position.offset.toNat = offset

/-! ## Where a run stands -/

theorem lineAt_eq_of_count {source : String} {front rest : List Char}
    (h : source.toList = front ++ rest) (hfeeds : source.toList.count '\n' + 1 < UInt32.size) :
    (lineAt front).toNat = 1 + lineFeeds source (Text.width front) := by
  have hcount := congrArg (List.count '\n') h
  rw [List.count_append] at hcount
  rw [Text.lineFeeds_of_append h]
  exact UInt32.toNat_ofNat_of_lt' (by omega)

theorem over_tokenAt {source : String} {front text rest : List Char}
    (h : source.toList = front ++ text ++ rest)
    (hfeeds : source.toList.count '\n' + 1 < UInt32.size) (s : Settings) {kind : Kind}
    (hend : kind = .endOfInput → text = [] ∧ rest = []) :
    (s.tokenAt kind front text).Over source (Text.width front) (Text.width (front ++ text)) := by
  have hfront : source.toList = front ++ (text ++ rest) := by rw [h, List.append_assoc]
  refine ⟨?_, rfl, rfl, lineAt_eq_of_count hfront hfeeds, lineAt_eq_of_count h hfeeds, fun ht => ?_⟩
  · rw [h, Settings.tokenAt, String.toList_ofList, Text.width_append, Text.slice?_append]
  · obtain ⟨rfl, rfl⟩ := hend (by simpa [Token.isEnd, Settings.tokenAt] using ht)
    rw [← Text.width_toList, h]
    simp

theorem Run.Wraps.behind {source : String} {n start stop last : Nat} {t : Token} {run : Run}
    (hgap : GapBetween source.toList n start) (ht : t.Over source start stop)
    (h : run.Wraps source stop last) :
    (run.behind [t] [.scanned t]).Wraps source n last := by
  obtain ⟨m, hm, hlast⟩ := h.placed
  refine ⟨⟨m, ⟨start, stop, hgap, ht, hm⟩, hlast⟩, fun hf => ?_, fun f hf => ?_,
    fun f offset hf => ?_⟩
  · obtain ⟨hsize, u, hu, hend⟩ := h.ended hf
    exact ⟨hsize, u, List.mem_cons_of_mem t hu, hend⟩
  · obtain ⟨hevent, htold⟩ := h.failed f hf
    exact ⟨List.mem_cons_of_mem _ hevent, htold⟩
  · rcases List.mem_cons.1 hf with hf | hf
    · cases hf
    · exact h.logged f offset hf

/-- Behind every front of a source the run wraps, by induction on what is read. -/
theorem wraps_run {s : Settings} (hs : s.lenient = false) {source : String}
    (hfeeds : source.toList.count '\n' + 1 < UInt32.size) (front ahead : List Char) :
    source.toList = front ++ ahead →
      ∃ last, ((Cursor.behind front ahead).run s).Wraps source (Text.width front) last := by
  induction front, ahead using Cursor.reading_induction with
  | lexeme front gap kind text rest hg h hr hk ih =>
    intro hsource
    have hcut : source.toList = front ++ gap ++ text ++ rest := by rw [hsource]; simp
    obtain ⟨last, hlast⟩ := ih hcut
    have hgap := @gapBetween_of_gap front gap (text ++ rest) hg
    rw [List.append_assoc front, ← hsource] at hgap
    rw [Cursor.run_lexeme front s hg h hr hk]
    exact ⟨last, .behind hgap (over_tokenAt hcut hfeeds s fun hend => absurd hend hk) hlast⟩
  | finish front gap hg =>
    intro hsource
    have hend : source.toList = front ++ gap ++ [] := by rw [hsource, List.append_nil]
    have hcut : source.toList = front ++ gap ++ [] ++ [] := by rw [hsource]; simp
    have hgap := @gapBetween_of_gap front gap [] hg
    have hnone := @gapBetween_of_gap (front ++ gap) [] [] .nil
    rw [← hend] at hgap
    rw [← hcut, List.append_nil] at hnone
    have hsize : Text.width (front ++ gap) = source.utf8ByteSize := by
      rw [← hsource, Text.width_toList]
    have hover := over_tokenAt hcut hfeeds s fun _ : Kind.endOfInput = .endOfInput => ⟨rfl, rfl⟩
    rw [List.append_nil] at hover
    rw [Cursor.run_finish front s hg]
    exact ⟨_, ⟨_, ⟨_, _, hgap, hover, rfl⟩, hnone⟩,
      fun _ => ⟨hsize, _, List.mem_singleton_self _, rfl⟩, by simp, by simp⟩
  | trouble front gap cause cs text rest hg h =>
    intro hsource
    have hgap := @gapBetween_of_gap front gap cs hg
    rw [List.append_assoc, ← hsource] at hgap
    have hcut : source.toList = front ++ gap ++ cs := by rw [hsource, List.append_assoc]
    rw [Cursor.run_trouble front s hg h (by simp [hs])]
    refine ⟨_, ⟨_, rfl, hgap⟩, by simp, fun f hf => ?_, fun f offset hf => ?_⟩
    · cases hf
      exact ⟨List.mem_singleton_self _, rfl, lineAt_eq_of_count hcut hfeeds⟩
    · cases List.mem_singleton.1 hf
      exact ⟨rfl, rfl⟩

/-! ## What a run tells -/

theorem pairwise_cons_of_le {i j : Nat} {ns : List Nat} (hij : i ≤ j)
    (h : (j :: ns).Pairwise (· ≤ ·)) : (i :: j :: ns).Pairwise (· ≤ ·) := by
  refine List.pairwise_cons.2 ⟨fun k hk => ?_, h⟩
  rcases List.mem_cons.1 hk with rfl | hk
  · exact hij
  · exact Nat.le_trans hij (List.rel_of_pairwise_cons h hk)

theorem Token.startsAt_lt_size (t : Token) : t.startsAt < UInt32.size := UInt32.toNat_lt_size _

theorem Token.Over.startsAt_eq {source : String} {t : Token} {start stop : Nat}
    (h : t.Over source start stop) (hfit : start < UInt32.size) : t.startsAt = start := by
  rw [Token.startsAt, h.starts]
  exact UInt32.toNat_ofNat_of_lt' hfit

theorem Token.Over.stopsAt_eq {source : String} {t : Token} {start stop : Nat}
    (h : t.Over source start stop) (hfit : stop < UInt32.size) : t.stopsAt = stop := by
  rw [Token.stopsAt, h.stops]
  exact UInt32.toNat_ofNat_of_lt' hfit

namespace Placed

variable {source : String}

theorem le {ts : List Token} {n m : Nat} (h : Placed source n ts m) : n ≤ m := by
  induction ts generalizing n with
  | nil => exact Nat.le_of_eq h
  | cons t ts ih =>
    obtain ⟨start, stop, hgap, ht, h⟩ := h
    exact Nat.le_trans hgap.1 (Nat.le_trans (Text.le_of_slice? ht.slice) (ih h))

/-- Up to the largest word the offsets that tokens tell are those at which they stand. -/
theorem over_told {ts : List Token} {n m : Nat} (h : Placed source n ts m)
    (hfit : m < UInt32.size) : ∀ t ∈ ts, t.Over source t.startsAt t.stopsAt := by
  induction ts generalizing n with
  | nil => simp
  | cons t ts ih =>
    obtain ⟨start, stop, -, ht, h⟩ := h
    have hstop := h.le
    have hstart := Text.le_of_slice? ht.slice
    refine List.forall_mem_cons.2 ⟨?_, ih h⟩
    rwa [ht.startsAt_eq (by omega), ht.stopsAt_eq (by omega)]

theorem ascends {ts : List Token} {n m : Nat} (h : Placed source n ts m) (hfit : m < UInt32.size) :
    (n :: ts.flatMap fun t => [t.startsAt, t.stopsAt]).Pairwise (· ≤ ·) := by
  induction ts generalizing n with
  | nil => simp
  | cons t ts ih =>
    obtain ⟨start, stop, hgap, ht, h⟩ := h
    have hstop := h.le
    have hstart := Text.le_of_slice? ht.slice
    rw [List.flatMap_cons, ht.startsAt_eq (by omega), ht.stopsAt_eq (by omega)]
    exact pairwise_cons_of_le hgap.1 (pairwise_cons_of_le hstart (ih h))

end Placed

/-- What a run tells is true exactly if it ended at an offset of 32 bits. -/
theorem Run.Wraps.tellsOffsets_iff {source : String} {n last : Nat} {run : Run}
    (h : run.Wraps source n last) : run.TellsOffsets source ↔ last < UInt32.size := by
  obtain ⟨m, hm, hlast⟩ := h.placed
  constructor
  · intro htells
    rcases hf : run.fault with _ | f
    · obtain ⟨hsize, t, ht, hend⟩ := h.ended hf
      rw [hsize, ← (htells.ends t ht hend).1]
      exact t.startsAt_lt_size
    · rw [← htells.failed f last (h.failed f hf).1]
      exact UInt32.toNat_lt_size _
  · intro hfit
    have hm_lt : m < UInt32.size := Nat.lt_of_le_of_lt hlast.1 hfit
    have hover := hm.over_told hm_lt
    refine ⟨fun t ht => (hover t ht).slice, ?_, fun t ht => (hover t ht).ends, ?_⟩
    · exact (hm.ascends hm_lt).tail
    · intro f offset hevent
      obtain ⟨hf, rfl⟩ := h.logged f offset hevent
      rw [(h.failed f hf).2.1]
      exact UInt32.toNat_ofNat_of_lt' hfit

/-- The tokens and the fault of a strict run stand where they should in a source of any size, and
the offsets that it tells are those places exactly if the last of them is a word of 32 bits. -/
theorem run_offsets_wrap (source : String) (file : Option String)
    (hfeeds : source.toList.count '\n' + 1 < UInt32.size) :
    ∃ last, (Run.of (.named file false) source).Wraps source 0 last ∧
      ((Run.of (.named file false) source).TellsOffsets source ↔ last < UInt32.size) := by
  obtain ⟨last, h⟩ := @wraps_run (.named file false) rfl source hfeeds [] source.toList rfl
  rw [← Run.of_eq] at h
  exact ⟨last, h, h.tellsOffsets_iff⟩

theorem run_offsets_wrap_comment :
    let source := "\"é\"/*\n*/x"
    let run := Run.of (.named none false) source
    source.toList.count '\n' + 1 < UInt32.size ∧ run.Wraps source 0 10 ∧
      run.TellsOffsets source := by
  intro source run
  have hfeeds : source.toList.count '\n' + 1 < UInt32.size := by decide +kernel
  have hnone : run.fault = none := by decide +kernel
  have hsize : source.utf8ByteSize = 10 := by decide +kernel
  obtain ⟨last, hwraps, htells⟩ := run_offsets_wrap source none hfeeds
  obtain rfl : last = 10 := (hwraps.ended hnone).1.trans hsize
  exact ⟨hfeeds, hwraps, htells.2 (by decide)⟩

/-! ## A letter behind many spaces -/

def indentedLetter (n : Nat) : String := String.ofList (List.replicate n ' ' ++ ['a'])

theorem tokens_indentedLetter (s : Settings) (n : Nat) :
    (Run.of s (indentedLetter n)).tokens = [s.tokenAt .identifier (List.replicate n ' ') ['a'],
      s.tokenAt .endOfInput (List.replicate n ' ' ++ ['a']) []] := by
  have hword : Kind.Form .identifier ['a'] :=
    ⟨⟨'a', [], rfl, by decide, by simp⟩, by decide⟩
  have hrun := Cursor.run_lexeme [] s (Trivia.gap_spaces n ['a']) hword (by simp [Trivia.Stops])
    (by decide)
  rw [Cursor.run_finish _ s .nil] at hrun
  rw [Run.of_eq, indentedLetter, String.toList_ofList]
  refine (congrArg Run.tokens hrun).trans ?_
  simp [Run.behind]

theorem width_spaces (n : Nat) : Text.width (List.replicate n ' ') = n :=
  (Text.width_replicate n ' ').trans (Nat.mul_one n)

theorem size_indentedLetter (n : Nat) : (indentedLetter n).utf8ByteSize = n + 1 := by
  rw [indentedLetter, ← Text.width_ofList, Text.width_append, width_spaces]
  rfl

theorem count_indentedLetter (n : Nat) : (indentedLetter n).toList.count '\n' = 0 := by
  rw [indentedLetter, String.toList_ofList, List.count_append, List.count_replicate]
  rfl

/-- Behind as many spaces as there are words of 32 bits, the letter is told where the first space
stands. -/
theorem slice_indentedLetter {n : Nat} (hn : n = UInt32.size) (s : Settings) :
    let t := s.tokenAt .identifier (List.replicate n ' ') ['a']
    Text.slice? (indentedLetter n).toList t.startsAt t.stopsAt = some [' '] := by
  intro t
  have hstart : t.startsAt = 0 := by
    show (UInt32.ofNat (Text.width (List.replicate n ' '))).toNat = 0
    rw [width_spaces, hn]
    rfl
  have hstop : t.stopsAt = 1 := by
    show (UInt32.ofNat (Text.width (List.replicate n ' ' ++ ['a']))).toNat = 1
    rw [Text.width_append, width_spaces, hn]
    rfl
  obtain ⟨k, rfl⟩ : ∃ k, n = k + 1 := ⟨4294967295, hn⟩
  have hslice := Text.slice?_append [] [' '] (List.replicate k ' ' ++ ['a'])
  rw [hstart, hstop, indentedLetter, String.toList_ofList, List.replicate_succ]
  exact hslice

/-- The end of a source that is too long for 32 bits is never told. -/
theorem not_tellsOffsets_of_le {n : Nat} (hn : UInt32.size ≤ n) (s : Settings) :
    ¬ (Run.of s (indentedLetter n)).TellsOffsets (indentedLetter n) := by
  intro h
  have hmem : s.tokenAt .endOfInput (List.replicate n ' ' ++ ['a']) [] ∈
      (Run.of s (indentedLetter n)).tokens := by simp [tokens_indentedLetter]
  have htold := (h.ends _ hmem rfl).1
  rw [size_indentedLetter] at htold
  have hlt := Token.startsAt_lt_size (s.tokenAt .endOfInput (List.replicate n ' ' ++ ['a']) [])
  omega

/-- Of such a source neither the end nor the letter is told where it stands. -/
theorem tells_indentedLetter {n : Nat} (hn : n = UInt32.size) (s : Settings) :
    (indentedLetter n).toList.count '\n' + 1 < UInt32.size ∧
      ¬ (Run.of s (indentedLetter n)).TellsOffsets (indentedLetter n) ∧
      ∃ t ∈ (Run.of s (indentedLetter n)).tokens, t.lexeme = "a" ∧
        Text.slice? (indentedLetter n).toList t.startsAt t.stopsAt = some [' '] := by
  refine ⟨?_, not_tellsOffsets_of_le (Nat.le_of_eq hn.symm) s,
    s.tokenAt .identifier (List.replicate n ' ') ['a'], ?_, rfl, slice_indentedLetter hn s⟩
  · rw [count_indentedLetter]
    decide
  · rw [tokens_indentedLetter]
    exact List.mem_cons_self

theorem not_tellsOffsets_indentedLetter :
    let source := indentedLetter 4294967296
    let run := Run.of (.named none false) source
    source.toList.count '\n' + 1 < UInt32.size ∧ ¬ run.TellsOffsets source ∧
      ∃ t ∈ run.tokens, t.lexeme = "a" ∧
        Text.slice? source.toList t.startsAt t.stopsAt = some [' '] :=
  @tells_indentedLetter 4294967296 rfl (.named none false)

end ScriptScan
