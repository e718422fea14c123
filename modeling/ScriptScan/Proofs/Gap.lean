import ScriptScan.Proofs.Piece

/-!
# Gaps

A gap is a row of complete pieces of trivia. A line comment is complete only where a line feed or
nothing follows, so pieces and gaps are told together with the text behind them.

The reader of one piece finds exactly the piece with which a text begins (`piece?_eq_some_iff`).
Hence every text has one longest gap at its beginning, the one behind which no piece begins
(`exists_gap`, `longest_of_gap`).
-/

namespace ScriptScan.Trivia

/-- A complete piece of trivia, and the text behind it: a blank, a line comment up to the end of its
line, or a block comment up to the first closing mark behind its opening mark. -/
inductive Piece : List Char → List Char → Prop
  | blank {c : Char} {rest : List Char} (h : isSpacing c = true) : Piece [c] rest
  | line {body rest : List Char} (hb : '\n' ∉ body) (hr : rest = [] ∨ rest.head? = some '\n') :
    Piece ('/' :: '/' :: body) rest
  | block {body rest : List Char} (hb : ¬ ['*', '/'] <:+: body ++ ['*']) :
    Piece ('/' :: '*' :: (body ++ ['*', '/'])) rest

/-- Complete pieces of trivia in a row, and the text behind them. -/
inductive Gap : List Char → List Char → Prop
  | nil {rest : List Char} : Gap [] rest
  | cons {piece gap rest : List Char} (hp : Piece piece (gap ++ rest)) (hg : Gap gap rest) :
    Gap (piece ++ gap) rest

theorem gap_spaces (n : Nat) (rest : List Char) : Gap (List.replicate n ' ') rest := by
  induction n with
  | zero => exact .nil
  | succ n ih => exact .cons (.blank rfl) ih

/-- No gap at the beginning of `cs` is longer than `gap`, behind which `rest` stands. -/
def Longest (cs gap rest : List Char) : Prop :=
  cs = gap ++ rest ∧ Gap gap rest ∧
    ∀ gap' rest', cs = gap' ++ rest' → Gap gap' rest' → gap'.length ≤ gap.length

/-! ## Reading one piece -/

/-- `rest` begins with no character that satisfies `p`. -/
def Stops (p : Char → Bool) (rest : List Char) : Prop := ∀ c, rest.head? = some c → p c = false

theorem Stops.takeWhile {p : Char → Bool} {rest : List Char} (h : Stops p rest) :
    rest.takeWhile p = [] := by
  rcases rest with _ | ⟨c, cs⟩
  · rfl
  · simp [h c rfl]

theorem Stops.dropWhile {p : Char → Bool} {rest : List Char} (h : Stops p rest) :
    rest.dropWhile p = rest := by
  rcases rest with _ | ⟨c, cs⟩
  · rfl
  · simp [h c rfl]

theorem stops_dropWhile (p : Char → Bool) (cs : List Char) : Stops p (cs.dropWhile p) := by
  intro c h
  have := List.head?_dropWhile_not p cs
  rw [h] at this
  simpa using this

theorem all_ne_of_notMem {x : Char} {cs : List Char} (h : x ∉ cs) : ∀ c ∈ cs, (c != x) = true := by
  rintro c hc
  rw [bne_iff_ne]
  rintro rfl
  exact h hc

theorem stops_iff_lineEnd {rest : List Char} :
    Stops (· != '\n') rest ↔ rest = [] ∨ rest.head? = some '\n' := by
  rcases rest with _ | ⟨c, cs⟩ <;> simp [Stops]

theorem closeFrom_append {seen body : List Char} (hb : ¬ ['*', '/'] <:+: body ++ ['*'])
    (rest : List Char) :
    closeFrom seen (body ++ '*' :: '/' :: rest) =
      some (seen.reverse ++ body ++ ['*', '/'], rest) := by
  induction body generalizing seen with
  | nil => simp [closeFrom]
  | cons c body ih =>
    rw [List.cons_append, List.infix_cons_iff, not_or] at hb
    rw [List.cons_append, closeFrom, ih hb.2]
    · simp
    · -- the closing mark does not begin at `c`, or it would stand in the body
      rintro r rfl hr
      apply hb.1
      cases body with
      | nil => simp at hr
      | cons d body => simp_all

theorem closeFrom_eq_some {seen cs piece rest : List Char}
    (h : closeFrom seen cs = some (piece, rest)) :
    ∃ body, piece = seen.reverse ++ body ++ ['*', '/'] ∧ cs = body ++ '*' :: '/' :: rest
      ∧ ¬ ['*', '/'] <:+: body ++ ['*'] := by
  fun_induction closeFrom seen cs with
  | case1 => simp at h
  | case2 seen cs =>
    simp only [Option.some.injEq, Prod.mk.injEq] at h
    obtain ⟨rfl, rfl⟩ := h
    exact ⟨[], by simp, rfl, by decide⟩
  | case3 seen c cs hc ih =>
    obtain ⟨body, hp, rfl, hb⟩ := ih h
    refine ⟨c :: body, by simp [hp], rfl, ?_⟩
    rw [List.cons_append, List.infix_cons_iff, not_or]
    refine ⟨fun hpre => ?_, hb⟩
    rw [List.cons_prefix_cons] at hpre
    obtain ⟨rfl, hpre⟩ := hpre
    cases body with
    | nil => simp at hpre
    | cons d body =>
      simp only [List.cons_append, List.cons_prefix_cons, List.nil_prefix, and_true] at hpre
      exact hc _ rfl (by rw [← hpre]; rfl)

theorem closeFrom_eq_none_iff {seen cs : List Char} :
    closeFrom seen cs = none ↔ ¬ ['*', '/'] <:+: cs := by
  constructor
  · intro h hinf
    fun_induction closeFrom seen cs with
    | case1 => simp at hinf
    | case2 => cases h
    | case3 seen c cs hc ih =>
      rw [List.infix_cons_iff] at hinf
      rcases hinf with hpre | hinf
      · obtain ⟨r, hr⟩ := hpre
        cases hr
        exact hc r rfl rfl
      · exact ih h hinf
  · intro h
    rcases hc : closeFrom seen cs with _ | ⟨piece, rest⟩
    · rfl
    · obtain ⟨body, -, rfl, -⟩ := closeFrom_eq_some hc
      exact absurd ⟨body, rest, by simp⟩ h

theorem piece?_of_piece {piece rest : List Char} (h : Piece piece rest) :
    piece? (piece ++ rest) = some (piece, rest) := by
  cases h with
  | @blank c _ hc =>
    rw [List.singleton_append, piece?]
    · rw [if_pos hc]
    · rintro cs rfl
      simp [isSpacing] at hc
    · rintro cs rfl
      simp [isSpacing] at hc
  | line hb hr =>
    have hbody := all_ne_of_notMem hb
    have hrest := stops_iff_lineEnd.2 hr
    simp only [List.cons_append, piece?]
    rw [List.takeWhile_append_of_pos hbody, List.dropWhile_append_of_pos hbody, hrest.takeWhile,
      hrest.dropWhile, List.append_nil]
  | block hb =>
    simp only [List.cons_append, List.append_assoc, piece?]
    exact closeFrom_append hb rest

theorem piece?_eq_some_iff {cs piece rest : List Char} :
    piece? cs = some (piece, rest) ↔ cs = piece ++ rest ∧ Piece piece rest := by
  refine ⟨fun h => ?_, fun ⟨hc, hp⟩ => hc ▸ piece?_of_piece hp⟩
  refine ⟨(piece?_eq_append h).1, ?_⟩
  unfold piece? at h
  split at h
  · simp only [Option.some.injEq, Prod.mk.injEq] at h
    obtain ⟨rfl, rfl⟩ := h
    refine .line (fun hn => ?_) (stops_iff_lineEnd.1 (stops_dropWhile _ _))
    simpa using List.all_eq_true.1 List.all_takeWhile _ hn
  · obtain ⟨body, rfl, -, hb⟩ := closeFrom_eq_some h
    exact .block hb
  · split at h
    · rename_i hc
      simp only [Option.some.injEq, Prod.mk.injEq] at h
      obtain ⟨rfl, rfl⟩ := h
      exact .blank hc
    · simp at h
  · simp at h

theorem isSpacing_of_piece?_eq_none {c : Char} {cs : List Char} (h : piece? (c :: cs) = none) :
    isSpacing c = false := by
  rw [Bool.eq_false_iff]
  intro hc
  rw [← List.singleton_append, piece?_of_piece (.blank hc)] at h
  cases h

/-! ## The longest gap -/

theorem exists_gap (cs : List Char) :
    ∃ gap rest, cs = gap ++ rest ∧ Gap gap rest ∧ piece? rest = none := by
  rcases h : piece? cs with _ | ⟨piece, rest⟩
  · exact ⟨[], cs, rfl, .nil, h⟩
  · obtain ⟨rfl, hp⟩ := piece?_eq_some_iff.1 h
    have := length_lt_of_piece? h
    obtain ⟨gap, rest, rfl, hg, hn⟩ := exists_gap rest
    exact ⟨piece ++ gap, rest, by simp, .cons hp hg, hn⟩
termination_by cs.length

/-- A gap reaches as far as any other if no piece begins behind it. -/
theorem length_le_of_gap {gap rest gap' rest' : List Char} (hg : Gap gap rest)
    (hn : piece? rest = none) (hg' : Gap gap' rest') (h : gap ++ rest = gap' ++ rest') :
    gap'.length ≤ gap.length := by
  induction hg' generalizing gap with
  | nil => simp
  | cons hp' _ ih =>
    have hread := piece?_of_piece hp'
    rw [← List.append_assoc, ← h] at hread
    cases hg with
    | nil =>
      rw [List.nil_append, hn] at hread
      cases hread
    | cons hp hg =>
      rw [List.append_assoc, piece?_of_piece hp] at hread
      simp only [Option.some.injEq, Prod.mk.injEq] at hread
      obtain ⟨rfl, hr⟩ := hread
      simpa using ih hg hr

theorem longest_of_gap {gap rest : List Char} (hg : Gap gap rest) (hn : piece? rest = none) :
    Longest (gap ++ rest) gap rest :=
  ⟨rfl, hg, fun _ _ h hg' => length_le_of_gap hg hn hg' h⟩

end ScriptScan.Trivia
