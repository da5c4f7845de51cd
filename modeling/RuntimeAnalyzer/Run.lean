import RuntimeAnalyzer.CliArgs
import RuntimeAnalyzer.Events
import RuntimeAnalyzer.Findings.Parser
import RuntimeAnalyzer.Lib.Decimal
import RuntimeAnalyzer.Process.Types

/-!
# One run

`run` compiles a program, executes it and reads its output. The compiler library, the process
runner and the lookup of the current directory are outside this file: `Tools` carries what they
answer. A run that does not build (`Builds`) leaves its defaults, one that builds without running
is a success, and any other is `finishRun` of what the process runner answers
(`run_of_not_builds`, `run_of_compile_only`, `run_of_launch`).
-/

namespace RuntimeAnalyzer

/-- `compilerlib::CompileResult` -/
structure CompileResult where
  success : Bool
  diagnostics : Bytes := []
  deriving DecidableEq, Repr

/-- What the parts outside of `Run` answer. -/
structure Tools where
  /-- `compilerlib::compile`, to a file and instrumented. -/
  compile : List Bytes → CompileResult
  /-- `RunProcess` -/
  runProcess : ProcessSpec → ProcessResult
  /-- `std::filesystem::absolute`, which may fail. -/
  absolute : Bytes → Option Bytes

/-- `text.back() != '\n'` adds a newline. -/
def endLine (text : Bytes) : Bytes :=
  if text ≠ [] ∧ text.getLast? ≠ some newline then text ++ [newline] else text

/-- `std::to_string` -/
def toText (n : Int) : Bytes :=
  if n < 0 then lit "-" ++ Decimal.render n.natAbs else Decimal.render n.natAbs

/-- The path of the binary as it is executed. -/
def absolutePathForExecution (tools : Tools) (outputPath : Bytes) : Bytes :=
  (tools.absolute outputPath).getD outputPath

/-- The program a run executes. -/
def processSpec (tools : Tools) (options : AnalyzerOptions) (outputPath : Bytes) : ProcessSpec where
  executable := absolutePathForExecution tools outputPath
  args := options.programArgs
  environment := options.environment
  workingDirectory := options.workingDirectory
  timeout := options.timeout

/-- The last part of `Run`: what is read off the output of a program that was executed. -/
def collectOutput (result : AnalyzerResult) : AnalyzerResult :=
  let stdout := collectEvents result.stdoutText []
  let stderr := collectEvents result.stderrText []
  { result with
    summary := mergeSummaries stdout.1 stderr.1
    coretraceEvents := stdout.2 ++ stderr.2
    findings :=
      parseFindings (stripAnsi result.stdoutText) ++ parseFindings (stripAnsi result.stderrText)
    success := result.exitCode = 0 }

/-- What `Run` copies from a `ProcessResult`, with the note on a timeout. -/
def receiveProcess (options : AnalyzerOptions) (result : AnalyzerResult)
    (process : ProcessResult) : AnalyzerResult :=
  { result with
    stdoutText := process.stdoutText
    stderrText := process.stderrText
    exitCode := process.exitCode
    executed := process.error = []
    timedOut := process.timedOut
    diagnostics :=
      if process.timedOut then
        result.diagnostics ++
          (lit "program timed out after " ++ toText (options.timeout.tdiv 1000) ++ lit " s\n")
      else result.diagnostics }

/-- The part of `Run` after `RunProcess`. -/
def finishRun (options : AnalyzerOptions) (result : AnalyzerResult) (process : ProcessResult) :
    AnalyzerResult :=
  let result := receiveProcess options result process
  if process.error ≠ [] then
    { result with diagnostics := endLine (result.diagnostics ++ process.error) }
  else collectOutput result

/-- One program: compiled, executed, and its output read. -/
def run (tools : Tools) (options : AnalyzerOptions) : AnalyzerResult :=
  if hasCompileOnlyAction options.compilerArgs && options.runProgram then
    { diagnostics :=
        lit "runtime-analyzer requires a linked executable; remove compile-only flags or pass " ++
          lit "--no-run" }
  else if options.explicitOutputPath && (findOutputArgument options.compilerArgs).present then
    { diagnostics :=
        lit "output path specified twice: use analyzer -o/--output or compiler -o, not both" }
  else
    let (compilerArgs, outputPath) := buildCompilerArguments options
    let compiled := tools.compile compilerArgs
    let result : AnalyzerResult :=
      { diagnostics := compiled.diagnostics
        outputPath := outputPath
        compileSuccess := compiled.success }
    if !compiled.success then result
    else if !options.runProgram then { result with success := true, exitCode := 0 }
    else finishRun options result (tools.runProcess (processSpec tools options outputPath))

/-! ## The three outcomes -/

/-- The run is not refused and its program compiles. -/
def Builds (tools : Tools) (options : AnalyzerOptions) : Prop :=
  (hasCompileOnlyAction options.compilerArgs && options.runProgram) = false ∧
    (options.explicitOutputPath && (findOutputArgument options.compilerArgs).present) = false ∧
    (tools.compile (buildCompilerArguments options).1).success = true

instance (tools : Tools) (options : AnalyzerOptions) : Decidable (Builds tools options) :=
  inferInstanceAs (Decidable (_ ∧ _))

/-- What the process runner answers to a run that builds and executes its program. -/
def processOf (tools : Tools) (options : AnalyzerOptions) : ProcessResult :=
  tools.runProcess (processSpec tools options (buildCompilerArguments options).2)

/-- The findings in the output of a process, stdout first. -/
def outputFindings (process : ProcessResult) : List Finding :=
  parseFindings (stripAnsi process.stdoutText) ++ parseFindings (stripAnsi process.stderrText)

/-- The result of a run that compiled, before it executes anything. -/
def compiledResult (tools : Tools) (options : AnalyzerOptions) : AnalyzerResult :=
  let (compilerArgs, outputPath) := buildCompilerArguments options
  { diagnostics := (tools.compile compilerArgs).diagnostics
    outputPath := outputPath
    compileSuccess := true }

variable {tools : Tools} {options : AnalyzerOptions}

/-- A run that does not build leaves every field it did not come to at its default. -/
theorem run_of_not_builds (h : ¬ Builds tools options) :
    ∃ diagnostics outputPath,
      run tools options = { diagnostics := diagnostics, outputPath := outputPath } := by
  unfold run
  split
  · exact ⟨_, _, rfl⟩
  · rename_i hcompileOnly
    split
    · exact ⟨_, _, rfl⟩
    · rename_i hexplicit
      have hfails : (tools.compile (buildCompilerArguments options).1).success = false := by
        rw [← Bool.not_eq_true]
        exact fun hsuccess => h ⟨by simpa using hcompileOnly, by simpa using hexplicit, hsuccess⟩
      refine ⟨(tools.compile (buildCompilerArguments options).1).diagnostics,
        (buildCompilerArguments options).2, ?_⟩
      simp [hfails]

/-- A run that builds and does not execute is a success. -/
theorem run_of_compile_only (h : Builds tools options) (hrun : options.runProgram = false) :
    run tools options = { compiledResult tools options with success := true, exitCode := 0 } := by
  obtain ⟨hcompileOnly, hexplicit, hsuccess⟩ := h
  simp [run, hexplicit, hsuccess, hrun, compiledResult]

/-- A run that builds and executes finishes with what the process runner answers. -/
theorem run_of_launch (h : Builds tools options) (hrun : options.runProgram = true) :
    run tools options =
      finishRun options (compiledResult tools options) (processOf tools options) := by
  obtain ⟨hcompileOnly, hexplicit, hsuccess⟩ := h
  unfold run
  rw [if_neg (by simp [hcompileOnly]), if_neg (by simp [hexplicit])]
  simp [hsuccess, hrun, compiledResult, processOf]

/-! ## The fields of a finished run -/

variable {result : AnalyzerResult} {process : ProcessResult}

@[simp] theorem finish_run_compile_success :
    (finishRun options result process).compileSuccess = result.compileSuccess := by
  by_cases herror : process.error = [] <;>
    simp [finishRun, receiveProcess, collectOutput, herror]

@[simp] theorem finish_run_executed :
    (finishRun options result process).executed = decide (process.error = []) := by
  by_cases herror : process.error = [] <;>
    simp [finishRun, receiveProcess, collectOutput, herror]

@[simp] theorem finish_run_timed_out :
    (finishRun options result process).timedOut = process.timedOut := by
  by_cases herror : process.error = [] <;>
    simp [finishRun, receiveProcess, collectOutput, herror]

@[simp] theorem finish_run_exit_code :
    (finishRun options result process).exitCode = process.exitCode := by
  by_cases herror : process.error = [] <;>
    simp [finishRun, receiveProcess, collectOutput, herror]

@[simp] theorem finish_run_stdout_text :
    (finishRun options result process).stdoutText = process.stdoutText := by
  by_cases herror : process.error = [] <;>
    simp [finishRun, receiveProcess, collectOutput, herror]

@[simp] theorem finish_run_stderr_text :
    (finishRun options result process).stderrText = process.stderrText := by
  by_cases herror : process.error = [] <;>
    simp [finishRun, receiveProcess, collectOutput, herror]

/-- Only a process without an error is a success, by its exit code alone. -/
theorem finish_run_success :
    (finishRun options result process).success =
      if process.error = [] then decide (process.exitCode = 0) else result.success := by
  by_cases herror : process.error = [] <;>
    simp [finishRun, receiveProcess, collectOutput, herror]

/-- Only the output of a process without an error is read. -/
theorem finish_run_findings :
    (finishRun options result process).findings =
      if process.error = [] then outputFindings process else result.findings := by
  by_cases herror : process.error = [] <;>
    simp [finishRun, receiveProcess, collectOutput, outputFindings, herror]

/-! ## The verdict of a run -/

/-- The verdict of a run that does not build is 2. -/
theorem verdict_of_not_builds (h : ¬ Builds tools options) (runProgram : Bool) :
    verdict (run tools options) runProgram = kExitNotAnalyzed := by
  obtain ⟨_, _, hrun⟩ := run_of_not_builds h
  simp [verdict, hrun]

/-- The verdict of a run that only builds is 0. -/
theorem verdict_of_compile_only (h : Builds tools options) (hrun : options.runProgram = false) :
    verdict (run tools options) options.runProgram = kExitNoFindings := by
  simp [verdict, run_of_compile_only h hrun, hrun, compiledResult]

/-- The verdict of a run that executes its program. -/
theorem verdict_of_launch (h : Builds tools options) (hrun : options.runProgram = true) :
    verdict (run tools options) options.runProgram =
      if (processOf tools options).error ≠ [] then kExitNotAnalyzed
      else if outputFindings (processOf tools options) ≠ [] then kExitFindings
      else if (processOf tools options).timedOut then kExitNotAnalyzed
      else kExitNoFindings := by
  rw [run_of_launch h hrun, hrun, verdict, finish_run_findings]
  by_cases herror : (processOf tools options).error = [] <;> simp [herror, compiledResult]

end RuntimeAnalyzer
