import ScriptScan.Proofs.Boundary
import ScriptScan.Proofs.Lenient

/-!
# Progress

A call finds the end of the input or passes at least a byte (`Session.Stands.ends_or_passes`), so
before the end of a source is found there are at most as many calls as bytes, whatever they answer
(`Session.Reachable.exists_end`). The end is where the calls stay: every further one answers the
same and moves nothing (`Session.Ended`). A run takes one call more than bytes at most
(`Cursor.length_run_le`).
-/

namespace ScriptScan

open Trivia (Gap)
open Reading (Reads)

def Outcome.isEnd : Outcome → Bool
  | .token t => t.isEnd
  | _ => false

/-- The session has found the end of its source: each call answers `t` and leaves all as it is. -/
structure Session.Ended (s : Session) (t : Token) : Prop where
  atEnd : s.atEnd = true
  closes : t.Closes s.source.toList
  again : ∀ n, scans n s = (List.replicate n (.token t), s)

theorem Text.width_pos {cs : List Char} (h : cs ≠ []) : 0 < width cs :=
  Nat.lt_of_lt_of_le (List.length_pos_iff.2 h) (length_le_width cs)

namespace Cursor

variable (front : List Char) (s : Settings)

/-- A token is the end of the input behind all that was ahead, or stands over some of it. -/
theorem scan_token_cases {ahead : List Char} {t : Token}
    (h : ((behind front ahead).scan s).outcome = .token t) :
    (t = s.tokenAt .endOfInput (front ++ ahead) [] ∧
        ((behind front ahead).scan s).cursor = behind (front ++ ahead) []) ∨
      t.isEnd = false ∧ ∃ text rest, text ≠ [] ∧ ahead = text ++ rest ∧
        ((behind front ahead).scan s).cursor = behind (front ++ text) rest := by
  obtain ⟨gap, cs, rfl, hg, hn⟩ := Trivia.exists_gap ahead
  have hr := Reading.reads_of hn
  generalize Reading.of cs = r at hr
  cases hr with
  | lexeme kind text rest hform hstops =>
    rw [scan_lexeme front s hg hform hstops] at h ⊢
    cases h
    by_cases hk : kind = .endOfInput
    · subst hk
      cases hform
      rw [Reading.eq_nil_of_grows_nil hstops]
      simp [Step.found]
    · have hne := Reading.ne_nil_of_form hform hk
      exact Or.inr ⟨beq_false_of_ne hk, gap ++ text, rest, by simp [hne], by simp,
        by simp [Step.found]⟩
  | @openString body hb =>
    rcases hl : s.lenient with _ | _
    · rw [scan_trouble front s hg (.openString hb) (by simp [hl])] at h
      cases h
    · rw [scan_openString front s hg hb hl] at h ⊢
      cases h
      exact Or.inr ⟨rfl, gap ++ '"' :: body, [], by simp, by simp, by simp [Step.after, Step.found]⟩
  | openComment hb =>
    rcases hl : s.lenient with _ | _
    · rw [scan_trouble front s hg (.openComment hb) (by simp [hl])] at h
      cases h
    · rw [scan_openComment front s hg hb hl] at h ⊢
      cases h
      simp [Step.after, Step.found]
  | tooLarge hne hd hstops hl =>
    rw [scan_trouble front s hg (.tooLarge hne hd hstops hl) (by simp)] at h
    cases h
  | unexpected hb hc =>
    rw [scan_trouble front s hg (.unexpected hb hc) (by simp)] at h
    cases h

/-- Each answer of a run but the last leaves less ahead. -/
theorem length_run_le (c : Cursor) (s : Settings) :
    (c.run s).tokens.length + (c.run s).fault.toList.length ≤ c.left + 1 := by
  rcases h : (c.scan s).outcome with t | f | _
  · rcases ht : t.isEnd with _ | _
    · have hlt := left_scan_lt h ht
      have ih := length_run_le (c.scan s).cursor s
      rw [run_of_token h ht]
      simp only [Run.behind, List.length_append, List.length_singleton]
      omega
    · simp [run_of_end h ht]
  · simp [run_of_fault h]
  · simp [run_of_inside h]
termination_by c.left

end Cursor

namespace Session

theorem length_scans (n : Nat) (s : Session) : (scans n s).1.length = n := by
  induction n generalizing s with
  | zero => rfl
  | succ n ih => rw [scans_succ, List.length_cons, ih]

theorem scans_of_fixed {s : Session} {o : Outcome} (h : s.scan = (o, s)) (n : Nat) :
    scans n s = (List.replicate n o, s) := by
  induction n with
  | zero => rfl
  | succ n ih => rw [scans_succ, h, ih, List.replicate_succ]

variable {s : Session} {front ahead : List Char} {pending : Nat}

theorem Stands.offset_lt_of_fault (h : s.Stands front ahead pending) {f : Fault}
    (hf : s.scan.1 = .fault f) : s.offset < s.scan.2.offset := by
  have hcall := h.call
  have hoff := h.offset
  rw [hf] at hcall
  generalize s.scan.2 = s' at hcall ⊢
  cases hcall with
  | @fault cause gap cs text rest hs hg hr =>
    have hnext := (stands_fault s (front ++ gap) hr).offset
    have hlt := pending_lt_width hr
    rw [Text.width_append, Text.width_append] at hnext
    omega

/-- A call finds the end of the input behind the whole source, or passes at least a byte. -/
theorem Stands.ends_or_passes (h : s.Stands front ahead pending) :
    s.scan = (.token (s.settings.tokenAt .endOfInput s.source.toList []),
        { s with cursor := .behind s.source.toList [] }) ∨
      s.scan.1.isEnd = false ∧ s.offset < s.scan.2.offset := by
  cases pending with
  | zero =>
    rcases ho : s.scan.1 with t | f | _
    · have hscan : s.scan = (.token t, { s with
          cursor := ((Cursor.behind front ahead).scan s.settings).cursor }) := by
        rw [← ho, Session.scan, h.cursor_eq]
      rw [Session.scan, h.cursor_eq] at ho
      rcases Cursor.scan_token_cases front s.settings ho with
        ⟨rfl, hcursor⟩ | ⟨hend, text, rest, hne, rfl, hcursor⟩ <;> rw [hscan, hcursor]
      · exact Or.inl (by rw [h.source])
      · have hwidth := Text.width_pos hne
        have hoff := h.offset
        refine Or.inr ⟨hend, ?_⟩
        show s.offset < Text.width (front ++ text)
        rw [Text.width_append]
        omega
    · exact Or.inr ⟨rfl, h.offset_lt_of_fault ho⟩
    · exact absurd rfl (h.answer_iff.1 ho)
  | succ n =>
    rw [h.scan_inside]
    exact Or.inr ⟨rfl, Nat.lt_succ_self _⟩

theorem Stands.offset_scan_le (h : s.Stands front ahead pending) :
    s.scan.2.offset ≤ s.source.utf8ByteSize := by
  obtain ⟨front', ahead', pending', hs'⟩ := h.scan
  rw [← s.same_scan.2]
  exact hs'.offset_le

/-- The end of the input is found, behind at most as many calls as bytes are ahead. -/
theorem Reachable.exists_end {s : Session} (h : s.Reachable) :
    ∃ n, s.offset + n ≤ s.source.utf8ByteSize ∧ (∀ o ∈ (Session.scans n s).1, o.isEnd = false) ∧
      (Session.scans n s).2.scan.1.isEnd = true := by
  obtain ⟨front, ahead, pending, hs⟩ := h.stands
  have hle := hs.offset_le
  rcases hs.ends_or_passes with hend | ⟨hfirst, hlt⟩
  · exact ⟨0, hle, by simp, by rw [scans_zero, hend]; rfl⟩
  · have hle' := hs.offset_scan_le
    obtain ⟨n, hn, hans, hend⟩ := exists_end h.scan
    rw [s.same_scan.2] at hn
    refine ⟨n + 1, by omega, ?_, ?_⟩ <;> rw [scans_succ]
    · exact List.forall_mem_cons.2 ⟨hfirst, hans⟩
    · exact hend
termination_by s.source.utf8ByteSize - s.offset
decreasing_by
  rw [s.same_scan.2]
  omega

/-! ## The end of the input -/

theorem atEnd_iff (s : Session) : s.atEnd = true ↔ s.source.utf8ByteSize ≤ s.offset :=
  decide_eq_true_iff

/-- At the end of a source nothing is left to be passed. -/
theorem Stands.cursor_of_atEnd (h : s.Stands front ahead pending) (he : s.atEnd = true) :
    s.cursor = .behind s.source.toList [] := by
  have hle := s.atEnd_iff.1 he
  have hoff := h.offset
  have hwidth := width_add_width h.source
  have hlen := Text.length_le_width ahead
  obtain rfl : pending = 0 := by omega
  obtain rfl : ahead = [] := List.eq_nil_of_length_eq_zero (by omega)
  rw [h.cursor_eq, h.source, List.append_nil]

theorem Stands.scan_of_atEnd (h : s.Stands front ahead pending) (he : s.atEnd = true) :
    s.scan = (.token (s.settings.tokenAt .endOfInput s.source.toList []), s) := by
  have hle := s.atEnd_iff.1 he
  have hle' := h.offset_scan_le
  rcases h.ends_or_passes with hend | ⟨-, hlt⟩
  · rw [hend, ← h.cursor_of_atEnd he]
  · omega

/-- A call that finds the end of the input leaves a session there. -/
theorem Stands.ended (h : s.Stands front ahead pending)
    (hfit : s.source.utf8ByteSize + 1 < UInt32.size) {t : Token} (ht : s.scan.1 = .token t)
    (hend : t.isEnd = true) : s.scan.2.Ended t := by
  rcases h.ends_or_passes with hscan | ⟨hnot, -⟩
  · rw [hscan] at ht ⊢
    cases ht
    have hs := stands_behind s s.source.toList []
    have hsource : ({ s with cursor := .behind s.source.toList [] } : Session).source.toList =
        s.source.toList := hs.source.trans (List.append_nil _)
    have hatEnd : ({ s with cursor := .behind s.source.toList [] } : Session).atEnd = true :=
      (atEnd_iff _).2
        (Nat.le_of_eq ((Text.width_toList _).symm.trans (congrArg Text.width hsource)))
    have hagain := hs.scan_of_atEnd hatEnd
    rw [hsource] at hagain
    refine ⟨hatEnd, ?_, scans_of_fixed hagain⟩
    rw [hsource]
    exact closes_tokenAt _ (by rwa [Text.width_toList])
  · rw [ht] at hnot
    exact absurd (hend.symm.trans hnot) (by decide)

/-- `tokenize` takes a call for each token that it finds, and one for its fault. -/
theorem tokenize_scans (source : String) (file : Option String) :
    ∃ n ≤ source.utf8ByteSize + 1,
      (∃ ts : List Token, tokenize source file = .ok ts ∧ ts.length = n ∧
        (scans n (start (.named file false) source)).1 = ts.map .token) ∨
      ∃ (ts : List Token) (f : Fault), tokenize source file = .error f ∧ ts.length + 1 = n ∧
        (scans n (start (.named file false) source)).1 = ts.map .token ++ [.fault f] := by
  have hlen := Cursor.length_run_le (Cursor.start source) (.named file false)
  obtain ⟨n, hn⟩ := scans_start (.named file false) source
  have hcalls := congrArg List.length hn
  rw [length_scans, List.length_append, List.length_map, List.length_map] at hcalls
  refine ⟨n, ?_, ?_⟩
  · rw [hcalls]
    exact hlen
  · rcases hf : (Run.of (.named file false) source).fault with _ | f <;>
      rw [hf] at hn hcalls
    · exact Or.inl ⟨_, tokenize_eq_ok_iff.2 ⟨hf, rfl⟩, hcalls.symm, by simpa using hn⟩
    · exact Or.inr ⟨_, f, tokenize_eq_error_iff.2 hf, hcalls.symm, hn⟩

/-- Every call but one that finds the end of the input passes something, so the end is found, behind
at most as many calls as bytes are ahead; from there on all calls are the same. `tokenize` takes at
most one call more than bytes. -/
theorem scan_progresses (h : s.Reachable) (hfit : s.source.utf8ByteSize + 1 < UInt32.size) :
    s.offset ≤ s.source.utf8ByteSize ∧
      (s.scan.1.isEnd = false → s.offset < s.scan.2.offset) ∧
      (∃ n, s.offset + n ≤ s.source.utf8ByteSize ∧
        (∀ o ∈ (scans n s).1, o.isEnd = false) ∧ (scans n s).2.scan.1.isEnd = true) ∧
      (s.atEnd = true ↔ s.source.utf8ByteSize ≤ s.offset) ∧
      (s.atEnd = true → s.scan.1.isEnd = true) ∧
      (∀ t, s.scan.1 = .token t → t.isEnd = true → s.scan.2.Ended t) ∧
      ∀ file, ∃ n ≤ s.source.utf8ByteSize + 1,
        (∃ ts : List Token, tokenize s.source file = .ok ts ∧ ts.length = n ∧
          (scans n (start (.named file false) s.source)).1 = ts.map .token) ∨
        ∃ (ts : List Token) (f : Fault), tokenize s.source file = .error f ∧ ts.length + 1 = n ∧
          (scans n (start (.named file false) s.source)).1 = ts.map .token ++ [.fault f] := by
  obtain ⟨front, ahead, pending, hs⟩ := h.stands
  refine ⟨hs.offset_le, ?_, h.exists_end, s.atEnd_iff, ?_, ?_, tokenize_scans s.source⟩
  · intro hend
    rcases hs.ends_or_passes with hscan | ⟨-, hlt⟩
    · rw [hscan] at hend
      cases hend
    · exact hlt
  · intro he
    rw [hs.scan_of_atEnd he]
    rfl
  · intro t ht hend
    exact hs.ended hfit ht hend

theorem scan_progresses_snowman :
    let s := (start (.named none true) "☃/*é").scan.2
    let u := s.scan.2.scan.2
    let t : Token := ⟨.endOfInput, "", none, 1, 1, ⟨⟨7, "shell"⟩, ⟨7, "shell"⟩⟩⟩
    s.Reachable ∧ u.Reachable ∧ s.source.utf8ByteSize + 1 < UInt32.size ∧
      s.scan.1 = .insideCharacter ∧ s.offset < s.scan.2.offset ∧
      u.scan.1 = .token t ∧ u.scan.2.Ended t := by
  intro s u t
  have hs : s.Reachable := .scan (.start _ _)
  have hu : u.Reachable := .scan (.scan hs)
  have hfit : s.source.utf8ByteSize + 1 < UInt32.size := by decide +kernel
  have hinside : s.scan.1 = .insideCharacter := by decide +kernel
  have ht : u.scan.1 = .token t := by decide +kernel
  obtain ⟨-, hpass, -⟩ := scan_progresses hs hfit
  obtain ⟨-, -, -, -, -, hended, -⟩ := scan_progresses hu (by decide +kernel)
  exact ⟨hs, hu, hfit, hinside, hpass (by rw [hinside]; rfl), ht, hended t ht rfl⟩

end Session

end ScriptScan
