import ScriptScan.Run

/-!
# Sessions

A session scans one source call by call and may go on after a fault. A fault at an unexpected
character passes only the first byte of it: the cursor then stands inside the character, and each
further scan passes one more byte and breaks off, until the character is behind. Where a token
begins, and on which line, is nothing that a session keeps: each call finds both anew behind the
trivia before it uses them, and a fault in the trivia uses neither.
-/

namespace ScriptScan

structure Session where
  settings : Settings
  cursor : Cursor
  deriving DecidableEq

namespace Session

def start (settings : Settings) (source : String) : Session := ⟨settings, Cursor.start source⟩

def restart (s : Session) (source : String) : Session := start s.settings source

def source (s : Session) : String := s.cursor.source

def offset (s : Session) : Nat := s.cursor.offset

def atEnd (s : Session) : Bool := s.source.utf8ByteSize ≤ s.offset

def scan (s : Session) : Outcome × Session :=
  let step := s.cursor.scan s.settings
  (step.outcome, { s with cursor := step.cursor })

/-- Goes on with some calls, of which the answers are known, the latest first. -/
def resume (answers : List Outcome) : Nat → Session → List Outcome × Session
  | 0, s => (answers.reverse, s)
  | n + 1, s =>
    let (answer, s) := s.scan
    resume (answer :: answers) n s

/-- The answers of `n` calls, whatever they are, and the session after them. -/
def scans (n : Nat) (s : Session) : List Outcome × Session := resume [] n s

/-- The answers of the calls up to the end of the input or the first that is no token, and the
session after them. -/
def drain (s : Session) : List Outcome × Session :=
  let run := s.cursor.run s.settings
  (run.outcomes, { s with cursor := run.cursor })

theorem resume_eq (answers : List Outcome) (n : Nat) (s : Session) :
    resume answers n s = (answers.reverse ++ (scans n s).1, (scans n s).2) := by
  induction n generalizing answers s with
  | zero => simp [scans, resume]
  | succ n ih =>
    simp only [scans, resume]
    rw [ih, ih [s.scan.1]]
    simp

@[simp] theorem scans_zero (s : Session) : scans 0 s = ([], s) := rfl

theorem scans_succ (n : Nat) (s : Session) :
    scans (n + 1) s = (s.scan.1 :: (scans n s.scan.2).1, (scans n s.scan.2).2) := by
  simp only [scans, resume]
  rw [resume_eq]
  rfl

end Session

end ScriptScan
