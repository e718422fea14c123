import ScriptScan.Main
import ScriptScan.Session
import ScriptScan.Proofs.Partition
import ScriptScan.Proofs.Failure
import ScriptScan.Proofs.Lenient
import ScriptScan.Proofs.Reprint
import ScriptScan.Proofs.Boundary
import ScriptScan.Proofs.Join
import ScriptScan.Proofs.Caret
import ScriptScan.Proofs.Longest
import ScriptScan.Proofs.Lookahead
import ScriptScan.Proofs.Progress
import ScriptScan.Proofs.Journal
import ScriptScan.Proofs.Locate
import ScriptScan.Proofs.Words
import ScriptScan.Proofs.Paths
import ScriptScan.Proofs.Report
import ScriptScan.Proofs.Numbers
import ScriptScan.Proofs.Dump
import ScriptScan.Proofs.Picture
import ScriptScan.Proofs.Wrap
