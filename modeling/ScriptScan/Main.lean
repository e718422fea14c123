import ScriptScan.CommandLine
import ScriptScan.Elapsed

/-!
# The program

Reads the file that its argument names, prints the report on it and tells the time it took.
-/

namespace ScriptScan.Program

/-- The number of an error of the system, of which the sign is no part. -/
def errorNumber (code : UInt32) : Nat :=
  if code.toNat < Nat.pow 2 31 then code.toNat else UInt32.size - code.toNat

def reasonOf : IO.Error → ReadFault
  | .noFileOrDirectory .. => .notFound
  | .inappropriateType _ code details | .permissionDenied _ code details
  | .resourceExhausted _ code details | .invalidArgument _ code details =>
    match errorNumber code with
    | 20 => .notDirectory
    | 21 => .isDirectory
    | n => .other (details.capitalize ++ " (os error " ++ toString n ++ ")")
  | e => .other (toString e)

def readFile (path : String) : IO (Except ReadFault String) := do
  match ← (IO.FS.readBinFile path).toBaseIO with
  | .ok bytes => return decodeText bytes
  | .error e => return .error (reasonOf e)

def run (args : List String) : IO UInt32 := do
  let began ← IO.monoNanosNow
  let source ← match args with
    | [path] => readFile path
    | _ => pure (.error .notFound)
  match CommandLine.run? (fun _ => source) args with
  | none =>
    IO.eprintln "the diagnostic is too wide to be drawn"
    return 101
  | some report =>
    IO.print report.stdout
    IO.eprint report.stderr
    if report.code == 0 then
      let ended ← IO.monoNanosNow
      IO.println (Elapsed.text (ended - began))
    return report.code.toUInt32

end ScriptScan.Program

def main (args : List String) : IO UInt32 := ScriptScan.Program.run args
