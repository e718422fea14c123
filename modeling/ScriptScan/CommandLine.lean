import ScriptScan.Diagnostic
import ScriptScan.Folder
import ScriptScan.Run

/-!
# The command line

One argument names a file, whose tokens are listed line by line. The exit status is 0 if the whole
file was scanned, 1 if it could not be read or scanned, and 2 if the arguments are wrong.
-/

namespace ScriptScan

/-- What a command leaves behind. A full list ends where the time it took is to be told. -/
structure Report where
  code : UInt8
  stdout : String
  stderr : String
  deriving DecidableEq, Repr

namespace CommandLine

def usage (program : String) : Report := ⟨2, "", "usage: " ++ program ++ " <file>\n"⟩

def unreadable (path : String) (reason : ReadFault) : Report :=
  ⟨1, "", "Failed to read " ++ path ++ ": " ++ reason.message ++ "\n"⟩

/-- Lists the tokens ahead of a cursor as they are found, behind `count` which are on `stdout`. A
fault ends the list. There is no report if the fault cannot be drawn or a scan breaks off. -/
def list? (s : Settings) (source stdout : String) (count : Nat) (c : Cursor) : Option Report :=
  let step := c.scan s
  match _h : step.outcome with
  | .insideCharacter => none
  | .fault f => (Diagnostic.render? f source).map fun picture => ⟨1, stdout, picture⟩
  | .token t =>
    let stdout := stdout ++ t.summary ++ "\n"
    let count := count + 1
    if _ht : t.isEnd then
      some ⟨0, stdout ++ "Tokenized " ++ toString count ++ " tokens in ", ""⟩
    else list? s source stdout count step.cursor
termination_by c.left
decreasing_by exact Cursor.left_scan_lt _h (by simpa using _ht)

/-- The report on a file; none if its fault cannot be drawn. -/
def report? (file : Option String) (source : String) : Option Report :=
  list? (.named file false) source "" 0 (.start source)

/-- The report on a command, the name of the program first, where `read` gives the text at a
path. -/
def command? (read : String → Except ReadFault String) : List String → Option Report
  | [_, path] =>
    match read path with
    | .ok source => report? (fileName? path) source
    | .error reason => some (unreadable path reason)
  | words => some (usage (words.headD "eduscript"))

/-- The report on the arguments of the program under its own name. -/
def run? (read : String → Except ReadFault String) (args : List String) : Option Report :=
  command? read ("eduscript" :: args)

end CommandLine

end ScriptScan
