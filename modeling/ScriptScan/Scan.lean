import ScriptScan.Event
import ScriptScan.Lexeme
import ScriptScan.Numeral

/-!
# One scan

A scan passes the trivia ahead of a cursor and then one lexeme, and answers with a token or a fault.
It walks over bytes but cuts the source for what it answers. Where the source cannot be cut the scan
breaks off: so it does inside a character, and only there. A lenient scan lets a string literal or a
block comment run to the end of the input where a strict one finds a fault. A token that is not the
end of the input leaves less ahead (`left_scan_lt`).
-/

namespace ScriptScan

structure Settings where
  /-- The name under which tokens and faults tell their positions. -/
  file : String
  lenient : Bool
  deriving DecidableEq, Repr

namespace Settings

/-- Settings for a file; one without a name goes by `shell`. -/
def named (file : Option String) (lenient : Bool) : Settings := ⟨file.getD "shell", lenient⟩

def position (s : Settings) (c : Cursor) : Position := ⟨UInt32.ofNat c.offset, s.file⟩

def token (s : Settings) (kind : Kind) (value : Option Value) (lexeme : String)
    (start stop : Cursor) : Token :=
  ⟨kind, lexeme, value, start.line, stop.line, ⟨s.position start, s.position stop⟩⟩

def fault (s : Settings) (cause : Cause) (c : Cursor) : Fault := ⟨cause, c.line, s.position c⟩

end Settings

inductive Outcome where
  | token (t : Token)
  | fault (f : Fault)
  /-- The source could not be cut. -/
  | insideCharacter
  deriving DecidableEq

/-- The outcome of a scan, the cursor that it leaves, and what it reported on the way. -/
structure Step where
  outcome : Outcome
  cursor : Cursor
  events : List Event

namespace Step

def found (token : Token) (cursor : Cursor) : Step := ⟨.token token, cursor, [.scanned token]⟩

def failed (fault : Fault) (offset : Nat) (cursor : Cursor) : Step :=
  ⟨.fault fault, cursor, [.failed fault offset]⟩

/-- The step goes on with the text between two offsets, or breaks off at a cursor. -/
def cutting (cursor : Cursor) (i j : Nat) (next : String → Step) : Step :=
  match Text.cut? cursor.source i j with
  | some text => next text
  | none => ⟨.insideCharacter, cursor, []⟩

/-- The step in front of which something else is reported. -/
def after (event : Event) (step : Step) : Step := { step with events := event :: step.events }

theorem cursor_cutting {cursor : Cursor} {i j : Nat} {next : String → Step}
    (h : ∀ text, (next text).cursor = cursor) : (cutting cursor i j next).cursor = cursor := by
  unfold cutting
  split
  · exact h _
  · rfl

end Step

namespace Cursor

variable (s : Settings) (start stop : Cursor)

/-- Finds a token between two cursors. -/
def token (kind : Kind) (value : Option Value) : Step :=
  .cutting stop start.offset stop.offset fun lexeme =>
    .found (s.token kind value lexeme start stop) stop

def reserved (kind : Kind) : Step :=
  if kind = .boolean then
    .cutting stop start.offset stop.offset fun word =>
      start.token s stop .boolean (some (.boolean (word == "true")))
  else start.token s stop kind none

def number : Step :=
  .cutting stop start.offset stop.offset fun digits =>
    match Numeral.value? digits.toList with
    | some n => start.token s stop .number (some (.number n))
    | none => .failed (s.fault (.numberTooLarge digits) start) start.offset stop

/-- A string literal, of which `stop` is behind the closing quote if it is closed. -/
def string (closed : Bool) : Step :=
  if closed then
    .cutting stop (start.offset + 1) (stop.offset - 1) fun body =>
      start.token s stop .string (some (.string body))
  else if s.lenient then
    .after (.stringCut start.line) <|
      .cutting stop (start.offset + 1) stop.source.utf8ByteSize fun body =>
        start.token s stop .string (some (.string body))
  else .failed (s.fault .openString start) start.offset stop

def unexpected : Step :=
  match Text.first? start.source start.offset with
  | some d => .failed (s.fault (.unexpected d) start) start.offset stop
  | none => ⟨.insideCharacter, stop, []⟩

/-- Reads the lexeme that begins with the byte `d`, which has just been passed. -/
def lexeme (d : Char) : Step :=
  if d.isDigit then start.number s (stop.passWhile Char.isDigit)
  else if d = '"' then
    let (stop, closed) := stop.closeString
    start.string s stop closed
  else match stop.symbol? d with
    | some (kind, stop) => start.token s stop kind none
    | none =>
      match stop.keyword? (Reserved.candidates d) with
      | some (kind, stop) => start.reserved s stop kind
      | none =>
        if isWordStart d then start.token s (stop.passWhile isWordPart) .identifier none
        else start.unexpected s stop

/-- Scans from where no trivia is ahead. -/
def scanLexeme : Step :=
  match start.peek? 0 with
  | none => start.token s start .endOfInput none
  | some d => start.lexeme s (start.advance 1) d

def scan (c : Cursor) (s : Settings) : Step :=
  match c.skipTrivia with
  | (start, none) => start.scanLexeme s
  | (stop, some opened) =>
    if s.lenient then .after (.commentCut opened.line) (stop.scanLexeme s)
    else .failed (s.fault .openComment opened) opened.offset stop

/-! ## Where a scan leads -/

variable {s : Settings} {start stop : Cursor}

theorem cursor_token (kind : Kind) (value : Option Value) :
    (start.token s stop kind value).cursor = stop :=
  Step.cursor_cutting fun _ => rfl

theorem cursor_reserved (kind : Kind) : (start.reserved s stop kind).cursor = stop := by
  unfold reserved
  split
  · exact Step.cursor_cutting fun _ => cursor_token _ _
  · exact cursor_token _ _

theorem cursor_number : (start.number s stop).cursor = stop := by
  refine Step.cursor_cutting fun digits => ?_
  split
  · exact cursor_token _ _
  · rfl

theorem cursor_string (closed : Bool) : (start.string s stop closed).cursor = stop := by
  unfold string
  split
  · exact Step.cursor_cutting fun _ => cursor_token _ _
  · split
    · exact Step.cursor_cutting fun _ => cursor_token _ _
    · rfl

theorem cursor_unexpected : (start.unexpected s stop).cursor = stop := by
  unfold unexpected
  split <;> rfl

theorem before_lexeme (d : Char) : stop.Before (start.lexeme s stop d).cursor := by
  unfold lexeme
  split
  · rw [cursor_number]
    exact before_passWhile _ _
  · split
    · simp only [cursor_string]
      exact before_closeString stop
    · split
      · rename_i h
        rw [cursor_token]
        exact before_symbol? h
      · split
        · rename_i h
          rw [cursor_reserved]
          exact before_keyword? h
        · split
          · rw [cursor_token]
            exact before_passWhile _ _
          · rw [cursor_unexpected]
            exact .refl stop

theorem before_scanLexeme (start : Cursor) (s : Settings) :
    start.Before (start.scanLexeme s).cursor := by
  unfold scanLexeme
  split
  · rw [cursor_token]
    exact .refl start
  · exact (before_advance start 1).trans (before_lexeme _)

theorem before_scan (c : Cursor) (s : Settings) : c.Before (c.scan s).cursor := by
  have h := before_skipTrivia c
  unfold scan
  split <;> rename_i hc <;> rw [hc] at h
  · exact h.trans (before_scanLexeme _ s)
  · split
    · exact h.trans (before_scanLexeme _ s)
    · exact h

/-- Where no byte is ahead, a scan finds the end of the input. -/
theorem left_scanLexeme_lt {t : Token} (h : (start.scanLexeme s).outcome = .token t)
    (ht : t.isEnd = false) : (start.scanLexeme s).cursor.left < start.left := by
  unfold scanLexeme at h ⊢
  split
  · rename_i hnone
    simp only [hnone, token, Step.cutting] at h
    split at h
    · cases h
      cases ht
    · cases h
  · rename_i d hd
    exact Nat.lt_of_le_of_lt (before_lexeme d).left_le (left_advance_lt hd Nat.one_pos)

theorem left_scan_lt {c : Cursor} {t : Token} (h : (c.scan s).outcome = .token t)
    (ht : t.isEnd = false) : (c.scan s).cursor.left < c.left := by
  have hle := (before_skipTrivia c).left_le
  unfold scan at h ⊢
  split <;> rename_i hc <;> simp only [hc] at h hle
  · exact Nat.lt_of_lt_of_le (left_scanLexeme_lt h ht) hle
  · split <;> rename_i hs
    · rw [if_pos hs] at h
      exact Nat.lt_of_lt_of_le (left_scanLexeme_lt h ht) hle
    · rw [if_neg hs] at h
      cases h

end Cursor

end ScriptScan
