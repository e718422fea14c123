import ScriptScan.Proofs.Steps

/-!
# The journal of a run

A scan logs what it found, and nothing else unless it is lenient and goes on where a strict scan
fails: then it logs in front of that what it cut off (`Step.Logs`). After that only the end of the
input is left, so the journal of a run is what it found in order with at most one other entry
between (`Run.journal_mirrors`).
-/

namespace ScriptScan

open Reading (Reads)

/-- What is logged: a level, and fields in the order of their names. -/
abbrev Entry := Level × List (String × String)

namespace Entry

def started (file : String) (bytes : Nat) : Entry :=
  (.debug, [("file", file), ("len", toString bytes), ("message", "starting scan session")])

def ofToken (t : Token) : Entry :=
  (.trace, [("kind", t.kind.title), ("lexeme", t.lexeme), ("line", toString t.startLine.toNat),
    ("message", "scanned token")])

def ofFault (file : String) (f : Fault) : Entry :=
  (.debug, [("file", file), ("message", f.message),
    ("offset", toString f.position.offset.toNat)])

/-- The entry of what a scan found. -/
def of? (file : String) : Outcome → Option Entry
  | .token t => some (ofToken t)
  | .fault f => some (ofFault file f)
  | .insideCharacter => none

/-- What is logged of a literal or comment without an end where it is cut off instead of failing
with `f`, and the kind of the token that is found there. -/
def cut? (f : Fault) : Option (Entry × Kind) :=
  match f.cause with
  | .openString =>
    some ((.debug, [("line", toString f.line.toNat),
      ("message", "string literal runs to end of input")]), .string)
  | .openComment =>
    some ((.debug, [("line", toString f.line.toNat),
      ("message", "block comment runs to end of input")]), .endOfInput)
  | _ => none

end Entry

def Event.entry (e : Event) : Entry := (e.level, e.fields)

def Step.entries (step : Step) : List Entry := step.events.map Event.entry

/-- What a scan logs, beside the strict scan from the same place: what it found, and the strict scan
finds the same; or in front of that what it cuts off where the strict scan fails, and then nothing
is left ahead. -/
inductive Step.Logs (s : Settings) (step strict : Step) : Prop
  | found (hentries : step.entries = (Entry.of? s.file step.outcome).toList)
    (houtcome : strict.outcome = step.outcome) (hcursor : strict.cursor = step.cursor)
    (hcut : s.lenient = true → ∀ f, step.outcome = .fault f → Entry.cut? f = none)
  | cut {f : Fault} {entry : Entry} {t : Token} {front : List Char}
    (hstrict : strict.outcome = .fault f) (hcut : Entry.cut? f = some (entry, t.kind))
    (hs : s.lenient = true) (houtcome : step.outcome = .token t)
    (hentries : step.entries = [entry, .ofToken t]) (hcursor : step.cursor = .behind front [])

/-- All scans of a run log what they found alone, unless the run is lenient and the strict run fails
for want of an end: then one scan logs in front of that what it cuts off. -/
structure Mirrors (s : Settings) (strict : Option Fault) (steps : List Step) : Prop where
  plain : (s.lenient = true → ∀ f, strict = some f → Entry.cut? f = none) →
    ∀ step ∈ steps, step.entries = (Entry.of? s.file step.outcome).toList
  cut : s.lenient = true → ∀ f entry kind, strict = some f → Entry.cut? f = some (entry, kind) →
    ∃ before step after t, steps = before ++ step :: after ∧
      (∀ other ∈ before ++ after, other.entries = (Entry.of? s.file other.outcome).toList) ∧
      step.outcome = .token t ∧ t.kind = kind ∧ step.entries = [entry, .ofToken t]

theorem Mirrors.nil {s : Settings} {strict : Option Fault}
    (h : s.lenient = true → ∀ f, strict = some f → Entry.cut? f = none) : Mirrors s strict [] := by
  refine ⟨fun _ step hmem => absurd hmem List.not_mem_nil, fun hs f entry kind hf hcut => ?_⟩
  rw [h hs f hf] at hcut
  cases hcut

theorem Mirrors.cons {s : Settings} {strict : Option Fault} {step : Step} {steps : List Step}
    (hstep : step.entries = (Entry.of? s.file step.outcome).toList) (h : Mirrors s strict steps) :
    Mirrors s strict (step :: steps) := by
  refine ⟨fun hnone => ?_, fun hs f entry kind hf hcut => ?_⟩
  · exact List.forall_mem_cons.2 ⟨hstep, h.plain hnone⟩
  · obtain ⟨before, cutting, after, t, rfl, hothers, hcutting⟩ := h.cut hs f entry kind hf hcut
    exact ⟨step :: before, cutting, after, t, rfl, List.forall_mem_cons.2 ⟨hstep, hothers⟩,
      hcutting⟩

theorem Mirrors.cons_cut {s : Settings} {f : Fault} {entry : Entry} {t : Token} {step : Step}
    {steps : List Step} (hcut : Entry.cut? f = some (entry, t.kind)) (hs : s.lenient = true)
    (houtcome : step.outcome = .token t) (hentries : step.entries = [entry, .ofToken t])
    (h : ∀ other ∈ steps, other.entries = (Entry.of? s.file other.outcome).toList) :
    Mirrors s (some f) (step :: steps) := by
  refine ⟨fun hnone => ?_, fun _ f' entry' kind hf hcut' => ?_⟩
  · rw [hnone hs f rfl] at hcut
    cases hcut
  · cases hf
    rw [hcut] at hcut'
    cases hcut'
    exact ⟨[], step, steps, t, rfl, h, houtcome, rfl, hentries⟩

namespace Cursor

variable {front ahead : List Char}

theorem scan_logs (s : Settings) (hfit : Text.width (front ++ ahead) + 1 < UInt32.size) :
    ((behind front ahead).scan s).Logs s
      ((behind front ahead).scan { s with lenient := false }) := by
  obtain ⟨gap, cs, rfl, hg, hn⟩ := Trivia.exists_gap ahead
  rw [← List.append_assoc, Text.width_append] at hfit
  have hoff := s.offset_positionAt (front ++ gap) (by omega)
  have hr := Reading.reads_of hn
  -- a trouble that both settings fail at, and which is logged by where it stands
  have hfails {cause : Cause} {text rest : List Char} (hr : Reads cs ⟨.trouble cause, text, rest⟩)
      (hc : s.lenient = true → cause ≠ .openString ∧ cause ≠ .openComment) :
      ((behind front (gap ++ cs)).scan s).Logs s
        ((behind front (gap ++ cs)).scan { s with lenient := false }) := by
    rw [scan_trouble front s hg hr hc, scan_trouble front _ hg hr (by simp)]
    refine .found ?_ rfl rfl fun hs f hf => ?_
    · show _ = [Entry.ofFault s.file _]
      rw [Step.entries, Step.failed, Entry.ofFault, Settings.faultAt, hoff]
      rfl
    · cases hf
      simp [Entry.cut?, Settings.faultAt, hc hs]
  generalize Reading.of cs = r at hr
  cases hr with
  | lexeme kind text rest hform hstops =>
    rw [scan_lexeme front s hg hform hstops, scan_lexeme front _ hg hform hstops]
    exact .found rfl rfl rfl fun _ f hf => by cases hf
  | openString hb =>
    rcases hs : s.lenient with _ | _
    · exact hfails (.openString hb) (by simp [hs])
    · rw [scan_openString front s hg hb hs, scan_trouble front _ hg (.openString hb) (by simp)]
      exact .cut rfl rfl hs rfl rfl rfl
  | openComment hb =>
    rcases hs : s.lenient with _ | _
    · exact hfails (.openComment hb) (by simp [hs])
    · rw [scan_openComment front s hg hb hs, scan_trouble front _ hg (.openComment hb) (by simp)]
      exact .cut rfl rfl hs rfl rfl rfl
  | tooLarge hne hd hr hl => exact hfails (.tooLarge hne hd hr hl) (by simp)
  | unexpected h hs => exact hfails (.unexpected h hs) (by simp)

theorem scan_end (front : List Char) (s : Settings) :
    (behind front []).scan s = .found (s.tokenAt .endOfInput front []) (behind front []) := by
  have hscan := @scan_lexeme front s [] .endOfInput [] [] .nil rfl (by simp [Trivia.Stops])
  simpa using hscan

/-- With nothing ahead a scan logs the end of the input. -/
theorem Steps.logs_end {s : Settings} {steps : List Step} (h : (behind front []).Steps s steps) :
    ∀ step ∈ steps, step.entries = (Entry.of? s.file step.outcome).toList := by
  generalize hc : behind front [] = c at h
  cases h with
  | last _ =>
    intro step hmem
    rw [List.mem_singleton.1 hmem, ← hc, scan_end]
    rfl
  | next houtcome ht _ =>
    rw [← hc, scan_end] at houtcome
    cases houtcome
    cases ht

theorem Steps.mirrors {s : Settings} {c : Cursor} {steps : List Step} (h : c.Steps s steps)
    {front ahead : List Char} (hc : c = behind front ahead)
    (hfit : Text.width (front ++ ahead) + 1 < UInt32.size) :
    Mirrors s (c.run { s with lenient := false }).fault steps := by
  induction h generalizing front ahead with
  | @last c hend =>
    subst hc
    cases scan_logs s hfit with
    | found hentries houtcome _ hcut =>
      refine .cons hentries (.nil fun hs f hf => ?_)
      rcases h : ((behind front ahead).scan s).outcome with t | f' | _
      · rw [run_of_end (houtcome.trans h) (hend t h)] at hf
        cases hf
      · rw [run_of_fault (houtcome.trans h)] at hf
        cases hf
        exact hcut hs f h
      · exact absurd h (outcome_scan_ne front ahead s)
    | cut hstrict hcut hs houtcome hentries _ =>
      rw [run_of_fault hstrict]
      exact .cons_cut hcut hs houtcome hentries (by simp)
  | @next c t steps h ht hsteps ih =>
    subst hc
    cases scan_logs s hfit with
    | found hentries houtcome hcursor _ =>
      obtain ⟨front', ahead', hc, hsource⟩ := exists_cursor_scan h
      rw [run_of_token (houtcome.trans h) ht, hcursor]
      exact .cons hentries (ih hc (by rwa [hsource]))
    | cut hstrict hcut hs houtcome hentries hcursor =>
      -- the strict run ends here, and the scans that follow find the end of the input only
      rw [hcursor] at hsteps
      rw [run_of_fault hstrict]
      exact .cons_cut hcut hs houtcome hentries hsteps.logs_end

end Cursor

/-- The journal of a run is the row of what its scans log, one after the other, and at most one of
them logs something else than what it found. -/
theorem Run.journal_mirrors (s : Settings) (source : String)
    (h : source.utf8ByteSize + 1 < UInt32.size) :
    ∃ steps, (Cursor.start source).Steps s steps ∧
      steps.map Step.outcome =
        (of s source).tokens.map .token ++ (of s source).fault.toList.map .fault ∧
      (journal s source).map Event.entry =
        .started s.file source.utf8ByteSize :: steps.flatMap Step.entries ∧
      Mirrors s (of { s with lenient := false } source).fault steps := by
  obtain ⟨steps, hsteps, houtcomes, hevents⟩ := (Cursor.start source).exists_steps s
  refine ⟨steps, hsteps, houtcomes.trans (outcomes_of s source), ?_, ?_⟩
  · rw [journal, of, ← hevents, List.map_cons, List.map_flatMap]
    rfl
  · exact hsteps.mirrors (Cursor.start_eq source) (by rwa [List.nil_append, Text.width_toList])

theorem Run.journal_mirrors_quote :
    let source := "a=\n\"bé\n/*"
    let s : Settings := ⟨"a.edu", true⟩
    let f : Fault := ⟨.openString, 2, ⟨3, "a.edu"⟩⟩
    let entry : Entry :=
      (.debug, [("line", "2"), ("message", "string literal runs to end of input")])
    source.utf8ByteSize + 1 < UInt32.size ∧ (of { s with lenient := false } source).fault = some f ∧
      ∃ steps, (Cursor.start source).Steps s steps ∧
        (journal s source).map Event.entry = .started "a.edu" 10 :: steps.flatMap Step.entries ∧
        ∃ before step after t, steps = before ++ step :: after ∧
          (∀ other ∈ before ++ after,
            other.entries = (Entry.of? "a.edu" other.outcome).toList) ∧
          step.outcome = .token t ∧ t.kind = .string ∧ step.entries = [entry, .ofToken t] := by
  intro source s f entry
  have hfit : source.utf8ByteSize + 1 < UInt32.size := by decide
  have hfault : (of { s with lenient := false } source).fault = some f := by decide +kernel
  obtain ⟨steps, hsteps, -, hjournal, hmirrors⟩ := journal_mirrors s source hfit
  have hcut : Entry.cut? f = some (entry, .string) := by decide +kernel
  exact ⟨hfit, hfault, steps, hsteps, hjournal, hmirrors.cut rfl f entry .string hfault hcut⟩

end ScriptScan
