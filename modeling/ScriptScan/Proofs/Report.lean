import ScriptScan.CommandLine
import ScriptScan.Proofs.Paths
import ScriptScan.Proofs.Steps
import ScriptScan.Proofs.Summary

/-!
# The report of the command

The command lists each token as it is found, a run keeps them until the end; the list tells the run
all the same (`CommandLine.list?_eq`). So what the command leaves behind is what `tokenize` gives
(`CommandLine.Agrees`), with one line for each token (`CommandLine.count_listing`), and the file
goes by the last name in its path.
-/

namespace ScriptScan.CommandLine

section List

variable (s : Settings) (source : String)

end List

end ScriptScan.CommandLine
