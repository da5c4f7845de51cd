import RuntimeAnalyzer.Types

/-!
# What a process run takes and returns

The structures of `process.hpp`.
-/

namespace RuntimeAnalyzer

/-- The program to run. The timeout is in milliseconds; 0 waits without limit. -/
structure ProcessSpec where
  executable : Bytes := []
  args : List Bytes := []
  environment : List Bytes := []
  workingDirectory : Bytes := []
  timeout : Int := 0
  deriving DecidableEq, Repr

/-- What became of it. -/
structure ProcessResult where
  /-- `128 + signal` when the process was killed. -/
  exitCode : Int := 1
  stdoutText : Bytes := []
  stderrText : Bytes := []
  /-- Why the process could not be run; empty when it ran. -/
  error : Bytes := []
  /-- The deadline passed and the process group was killed. -/
  timedOut : Bool := false
  deriving DecidableEq, Repr

end RuntimeAnalyzer
