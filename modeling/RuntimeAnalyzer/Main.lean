import RuntimeAnalyzer.BatchReport
import RuntimeAnalyzer.ParseArgs
import RuntimeAnalyzer.Sarif
import RuntimeAnalyzer.ShippedToolchain

/-!
# The command line program

`main` puts the parts together: it parses its arguments, makes a run or a batch and prints what came
of it, as text or as a SARIF log. Its exit status is the verdict. What the parts outside of this
repository answer is that of `Host`.
-/

namespace RuntimeAnalyzer

/-- What the program finds on its host. -/
structure Host where
  /-- `kVersion` -/
  version : Bytes
  /-- `llvm::sys::fs::getMainExecutable`, from the name of the program; empty when unknown. -/
  mainExecutable : Bytes → Bytes
  environ : List Bytes
  files : Files
  /-- What a run meets in an environment. -/
  tools : List Bytes → Tools
  /-- What a batch meets in an environment. -/
  batchTools : List Bytes → BatchTools
  /-- How LLVM prints a JSON value. -/
  printJson : Json → Bytes

/-- What the program writes, and its exit status. -/
structure Outcome where
  stdout : Bytes := []
  stderr : Bytes := []
  status : Int
  deriving DecidableEq, Repr

/-! ## What is printed -/

/-- What `PrintHelp` writes. -/
def printHelp : Bytes :=
  lit "Usage: runtime-analyzer [options] -- <compiler args>\n\n" ++
    lit "Builds an instrumented binary with coretrace-compiler library mode, runs it, " ++
    lit "and collects basic runtime events.\n\n" ++
    lit "Options:\n" ++
    lit "  -o, --output <path>       Instrumented binary path when compiler args do " ++
    lit "not contain -o\n" ++
    lit "  --run-arg <value>         Argument passed to the instrumented binary\n" ++
    lit "  --env NAME=VALUE          Environment variable passed to the " ++
    lit "instrumented binary\n" ++
    lit "  --cwd <path>              Working directory used when running the binary\n" ++
    lit "  --timeout <seconds>       Kill the binary after this long (default 60, 0 " ++
    lit "disables)\n" ++
    lit "  --test-dir <path>         Run every C/C++ source file under a test " ++
    lit "directory\n" ++
    lit "  --output-dir <path>       Artifact directory used by --test-dir\n" ++
    lit "  --strict-test-exit        Make batch mode fail when any test binary exits " ++
    lit "non-zero\n" ++
    lit "  --no-run                  Compile only, without executing the binary\n" ++
    lit "  --show-output             Print captured stdout/stderr after the summary\n" ++
    lit "  --show-events             Print collected CoreTrace event lines\n" ++
    lit "  --format <text|sarif>     Print a text summary (default) or a SARIF log " ++
    lit "of the findings\n" ++
    lit "  -h, --help                Show this help\n" ++
    lit "  --version                 Print the version and exit\n\n" ++
    lit "Exit status: 0 without findings, 1 with findings, 2 when the program could " ++
    lit "not be built or run.\n\n" ++
    lit "Example:\n" ++
    lit "  runtime-analyzer -o ./app -- --ct-modules=trace,alloc,bounds main.c\n"

/-- The end of `PrintResult`, for the options that ask for more. -/
def printDetails (result : AnalyzerResult) (options : AnalyzerOptions) : Bytes :=
  (if options.showEvents && result.coretraceEvents ≠ [] then
    lit "\nruntime-analyzer: events\n" ++ result.coretraceEvents.flatMap (· ++ lit "\n")
  else []) ++
    if options.showProgramOutput then
      lit "\nruntime-analyzer: stdout\n" ++ endLine result.stdoutText ++
        lit "\nruntime-analyzer: stderr\n" ++ endLine result.stderrText
    else []

/-- What `PrintResult` writes. -/
def printResult (result : AnalyzerResult) (options : AnalyzerOptions) : Bytes :=
  lit "runtime-analyzer: binary=" ++ result.outputPath ++ lit "\n" ++
    lit "runtime-analyzer: exit_code=" ++ toText result.exitCode ++ lit "\n" ++
    lit "runtime-analyzer: timed_out=" ++ (if result.timedOut then lit "1" else lit "0") ++
    lit "\n" ++
    lit "runtime-analyzer: findings=" ++ Decimal.render result.findings.length ++ lit "\n" ++
    printFindings result.findings (lit "  ") ++
    lit "runtime-analyzer: collection\n" ++
    printTotal (lit "coretrace_lines") result.summary.coretraceLines ++
    printTotal (lit "entry_events") result.summary.entryEvents ++
    printTotal (lit "exit_events") result.summary.exitEvents ++
    printTotal (lit "allocation_events") result.summary.allocationEvents ++
    printTotal (lit "bounds_errors") result.summary.boundsErrors ++
    printTotal (lit "leak_reports") result.summary.leakReports ++
    printTotal (lit "vtable_events") result.summary.vtableEvents ++
    printTotal (lit "warnings") result.summary.warnings ++
    printTotal (lit "errors") result.summary.errors ++
    printDetails result options

/-- The log as it is written. -/
def Host.printLog (host : Host) (findings : List Finding) : Bytes :=
  host.printJson (writeSarif findings) ++ lit "\n"

/-! ## The program -/

/-- The environment in which the program goes on. -/
def Host.runtimeEnviron (host : Host) (program : Bytes) : List Bytes :=
  (useShippedClangHeaders host.files host.environ (host.mainExecutable program)).2

/-- The options with the arguments that link against the shipped runtime. -/
def Host.linkShipped (host : Host) (program : Bytes) (options : AnalyzerOptions) :
    AnalyzerOptions :=
  if hasCompileOnlyAction options.compilerArgs then options
  else
    { options with
      compilerArgs :=
        options.compilerArgs ++ shippedLinkArguments host.files (host.mainExecutable program) }

/-- The batch of `Main`, and what it prints of it. -/
def Host.mainBatch (host : Host) (environ : List Bytes) (options : AnalyzerOptions)
    (format : OutputFormat) : Outcome :=
  let result := runBatch (host.batchTools environ) options
  { stderr := endLine result.diagnostics
    stdout :=
      match format with
      | .sarif => host.printLog (allFindings result)
      | .text => printBatchResult result options
    status := result.exitCode }

/-- The run of `Main`, and what it prints of it. -/
def Host.mainRun (host : Host) (environ : List Bytes) (options : AnalyzerOptions)
    (format : OutputFormat) : Outcome :=
  let result := run (host.tools environ) options
  let outputPath := if result.outputPath = [] then options.outputPath else result.outputPath
  { stderr := endLine result.diagnostics
    stdout :=
      match format with
      | .sarif => host.printLog result.findings
      | .text => printResult { result with outputPath := outputPath } options
    status := verdict result options.runProgram }

/-- `Main` -/
def main (host : Host) (argv : List Bytes) : Outcome :=
  let parsed := parseArgs argv
  if parsed.help then { stdout := printHelp, status := 0 }
  else if parsed.version then
    { stdout := lit "runtime-analyzer " ++ host.version ++ lit "\n", status := 0 }
  else
    let program := argv.headD []
    let environ := host.runtimeEnviron program
    let options := host.linkShipped program parsed.options
    if !parsed.ok then
      { stderr := lit "runtime-analyzer: " ++ parsed.error ++ lit "\n" ++ printHelp
        status := kExitNotAnalyzed }
    else if options.testDirectories ≠ [] then host.mainBatch environ options parsed.format
    else host.mainRun environ options parsed.format

end RuntimeAnalyzer
