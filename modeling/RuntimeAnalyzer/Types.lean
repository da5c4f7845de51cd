import RuntimeAnalyzer.Text

/-!
# The public structures

The structures of `include/runtime_analyzer.hpp` with their defaults. Counters count lines and
tests, so they are natural numbers; durations are signed counts of milliseconds.
-/

namespace RuntimeAnalyzer

/-- What the caller asks for. -/
structure AnalyzerOptions where
  compilerArgs : List Bytes := []
  programArgs : List Bytes := []
  environment : List Bytes := []
  testDirectories : List Bytes := []
  outputPath : Bytes := lit "runtime-analyzer.out"
  outputDirectory : Bytes := lit "runtime-analyzer-artifacts"
  workingDirectory : Bytes := []
  /-- In milliseconds, per program run; 0 disables the limit. -/
  timeout : Int := 60000
  explicitOutputPath : Bool := false
  runProgram : Bool := true
  showProgramOutput : Bool := false
  showEvents : Bool := false
  strictTestExit : Bool := false
  deriving DecidableEq, Repr

/-- The counters of the CoreTrace event lines. -/
structure CollectionSummary where
  coretraceLines : Nat := 0
  entryEvents : Nat := 0
  exitEvents : Nat := 0
  allocationEvents : Nat := 0
  boundsErrors : Nat := 0
  leakReports : Nat := 0
  vtableEvents : Nat := 0
  warnings : Nat := 0
  errors : Nat := 0
  deriving DecidableEq, Repr

/-- A place in a source file; the column is 0 when the runtime reports none. -/
structure SourceLocation where
  file : Bytes := []
  line : Nat := 0
  column : Nat := 0
  deriving DecidableEq, Repr

inductive Severity
  | warning
  | error
  deriving DecidableEq, Repr

/-- One runtime report. -/
structure Finding where
  rule : Bytes := []
  cwe : Bytes := []
  severity : Severity := .error
  message : Bytes := []
  /-- The faulting access. -/
  location : Option SourceLocation := none
  /-- Where the memory was allocated. -/
  allocation : Option SourceLocation := none
  deriving DecidableEq, Repr

/-- The result of one program. -/
structure AnalyzerResult where
  success : Bool := false
  compileSuccess : Bool := false
  executed : Bool := false
  timedOut : Bool := false
  /-- The program's own exit status. -/
  exitCode : Int := 1
  outputPath : Bytes := []
  diagnostics : Bytes := []
  stdoutText : Bytes := []
  stderrText : Bytes := []
  coretraceEvents : List Bytes := []
  findings : List Finding := []
  summary : CollectionSummary := {}
  deriving DecidableEq, Repr

/-- The result of one source of a batch. -/
structure TestFileResult where
  sourcePath : Bytes
  analyzerResult : AnalyzerResult
  deriving DecidableEq, Repr

/-- The result of a batch; the exit code is 2 until every source has been looked at. -/
structure BatchResult where
  success : Bool := false
  exitCode : Int := 2
  tests : List TestFileResult := []
  summary : CollectionSummary := {}
  diagnostics : Bytes := []
  compileFailures : Nat := 0
  runtimeFailures : Nat := 0
  timeouts : Nat := 0
  deriving DecidableEq, Repr

end RuntimeAnalyzer
