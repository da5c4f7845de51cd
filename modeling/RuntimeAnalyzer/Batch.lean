import Mathlib.Data.List.Destutter
import Mathlib.Data.List.Sort
import RuntimeAnalyzer.Run

/-!
# A batch of tests

`runBatch` finds the sources under the test directories and makes a run of each. What the file
system answers, and the tools that the run of each source meets, are those of `BatchTools`. A batch
that finds no source keeps the exit code 2 of its defaults (`run_batch_of_not_reached`); any other
is `runTests` over its sources.
-/

namespace RuntimeAnalyzer

/-- What a recursive directory iterator gives. -/
structure Scan where
  /-- The entries, and whether each is a regular file. -/
  entries : List (Bytes × Bool) := []
  /-- The message of the error that stops it. -/
  error : Option Bytes := none
  deriving DecidableEq, Repr

/-- What the parts outside of `RunBatch` answer. -/
structure BatchTools where
  /-- `std::filesystem::create_directories`, which may fail with a message. -/
  createDirectories : Bytes → Option Bytes
  /-- `std::filesystem::exists` -/
  pathExists : Bytes → Bool
  /-- `std::filesystem::is_directory` -/
  isDirectory : Bytes → Bool
  scan : Bytes → Scan
  /-- `std::filesystem::relative` of a source, which may fail. -/
  relative : Bytes → Option Bytes
  /-- The text of a source, empty when it cannot be read. -/
  readSmallTextFile : Bytes → Bytes
  /-- What the run of a source meets. -/
  toolsFor : Bytes → Tools

variable (tools : BatchTools) (options : AnalyzerOptions)

/-! ## Discovery -/

def isSourceFile (path : Bytes) : Bool :=
  let ext := Path.extension path
  ext = lit ".c" || ext = lit ".cc" || ext = lit ".cpp" || ext = lit ".cxx"

/-- The sources in the order of a scan. -/
def Scan.sources (scan : Scan) : List Bytes :=
  (scan.entries.filter fun entry => entry.2 && isSourceFile entry.1).map (·.1)

/-- What one directory gives: its sources, and what is said about it. -/
def discoverIn (directory : Bytes) : List Bytes × Bytes :=
  if !tools.pathExists directory then
    ([], lit "test directory does not exist: " ++ directory ++ lit "\n")
  else if !tools.isDirectory directory then
    ([], lit "test path is not a directory: " ++ directory ++ lit "\n")
  else
    let scan := tools.scan directory
    match scan.error with
    | none => (scan.sources, [])
    -- The sources seen before the error are kept.
    | some message =>
        (scan.sources,
          lit "failed while scanning test directory " ++ directory ++ lit ": " ++ message ++
            lit "\n")

/-- `std::ranges::sort` and `std::ranges::unique` -/
def sortUnique (paths : List Bytes) : List Bytes :=
  (paths.insertionSort (Path.le · ·)).destutter fun lhs rhs => Path.equal lhs rhs = false

/-- The sources under the directories, sorted and without repetition, and what is said about the
directories. -/
def discoverSourceFiles (directories : List Bytes) : List Bytes × Bytes :=
  (sortUnique (directories.flatMap fun directory => (discoverIn tools directory).1),
    directories.flatMap fun directory => (discoverIn tools directory).2)

/-! ## The run of a source -/

/-- The options of the run of a source. -/
def testOptions (source : Bytes) : AnalyzerOptions :=
  { options with
    testDirectories := []
    outputPath := makeTestOutputPath (tools.relative source) options source
    explicitOutputPath := true
    compilerArgs :=
      addPerSourceCompatibilityArgs source (tools.readSmallTextFile source) options.compilerArgs ++
        [source] }

/-- The run of a source; the path of its binary is known even when it was not built. -/
def runTest (source : Bytes) : AnalyzerResult :=
  let test := testOptions tools options source
  let analyzer := run (tools.toolsFor source) test
  { analyzer with
    outputPath := if analyzer.outputPath = [] then test.outputPath else analyzer.outputPath }

/-! ## The batch -/

/-- The counter that a result goes to, if any. -/
inductive Failure
  | compile
  | timeout
  | runtime
  deriving DecidableEq, Repr

def failureOf (analyzer : AnalyzerResult) : Option Failure :=
  if !analyzer.compileSuccess then some .compile
  else if analyzer.timedOut then some .timeout
  else if analyzer.exitCode ≠ 0 then some .runtime
  else none

def BatchResult.count (batch : BatchResult) : Option Failure → BatchResult
  | some .compile => { batch with compileFailures := batch.compileFailures + 1 }
  | some .timeout => { batch with timeouts := batch.timeouts + 1 }
  | some .runtime => { batch with runtimeFailures := batch.runtimeFailures + 1 }
  | none => batch

/-- `batch.diagnostics` with what the run of a source says. -/
def appendDiagnostics (diagnostics source said : Bytes) : Bytes :=
  if said = [] then diagnostics else endLine (diagnostics ++ source ++ lit ":\n" ++ said)

/-- The batch so far with one test more. -/
def BatchResult.record (batch : BatchResult) (test : TestFileResult) : BatchResult :=
  let analyzer := test.analyzerResult
  let counted := batch.count (failureOf analyzer)
  { counted with
    diagnostics := appendDiagnostics batch.diagnostics test.sourcePath analyzer.diagnostics
    summary := mergeSummaries batch.summary analyzer.summary
    tests := batch.tests ++ [test] }

/-- One turn of the loop: the batch and the verdict so far. -/
def testSource (state : BatchResult × Int) (source : Bytes) : BatchResult × Int :=
  let analyzer := runTest tools options source
  (state.1.record ⟨source, analyzer⟩, max state.2 (verdict analyzer options.runProgram))

/-- The end of `RunBatch`: the strict flag raises the exit code. -/
def finishBatch (state : BatchResult × Int) : BatchResult :=
  let (batch, verdict) := state
  let runtimeOk := if options.strictTestExit then decide (batch.runtimeFailures = 0) else true
  { batch with
    success := batch.compileFailures = 0 && runtimeOk
    exitCode := if runtimeOk then verdict else max verdict kExitFindings }

/-- The loop over the sources and what follows it. -/
def runTests (diagnostics : Bytes) (sources : List Bytes) : BatchResult :=
  finishBatch options
    (sources.foldl (testSource tools options) ({ diagnostics := diagnostics }, kExitNoFindings))

def runBatch : BatchResult :=
  if hasCompileOnlyAction options.compilerArgs && options.runProgram then
    { diagnostics :=
        lit "runtime-analyzer batch mode requires linked executables; remove compile-only flags " ++
          lit "or pass --no-run" }
  else
    match tools.createDirectories options.outputDirectory with
    | some message =>
        { diagnostics :=
            lit "failed to create output directory " ++ options.outputDirectory ++ lit ": " ++
              message }
    | none =>
        let (sources, diagnostics) := discoverSourceFiles tools options.testDirectories
        if sources = [] then { diagnostics := diagnostics ++ lit "no C/C++ test sources found\n" }
        else runTests tools options diagnostics sources

/-- The findings of a batch, test by test. -/
def allFindings (batch : BatchResult) : List Finding :=
  batch.tests.flatMap (·.analyzerResult.findings)

/-! ## Batches that come to their sources -/

/-- The batch is not refused, has its output directory and finds a source. -/
def Reached : Prop :=
  (hasCompileOnlyAction options.compilerArgs && options.runProgram) = false ∧
    tools.createDirectories options.outputDirectory = none ∧
    (discoverSourceFiles tools options.testDirectories).1 ≠ []

instance : Decidable (Reached tools options) :=
  inferInstanceAs (Decidable (_ ∧ _))

/-- The batch is not refused and has its output directory, so it searches the test directories. -/
def Searches : Prop :=
  (hasCompileOnlyAction options.compilerArgs && options.runProgram) = false ∧
    tools.createDirectories options.outputDirectory = none

variable {tools : BatchTools} {options : AnalyzerOptions}

theorem run_batch_of_reached (h : Reached tools options) :
    runBatch tools options =
      runTests tools options (discoverSourceFiles tools options.testDirectories).2
        (discoverSourceFiles tools options.testDirectories).1 := by
  obtain ⟨hallowed, hcreated, hsources⟩ := h
  simp [runBatch, hallowed, hcreated, hsources]

/-- A batch that does not come to a source keeps its defaults, and says why. -/
theorem run_batch_of_not_reached (h : ¬ Reached tools options) :
    ∃ diagnostics, diagnostics ≠ [] ∧ runBatch tools options = { diagnostics := diagnostics } := by
  unfold runBatch
  split
  · exact ⟨_, by simp, rfl⟩
  · rename_i hallowed
    split
    · exact ⟨_, by simp, rfl⟩
    · rename_i hcreated
      have hsources : (discoverSourceFiles tools options.testDirectories).1 = [] := by
        by_contra hne
        exact h ⟨by simpa using hallowed, hcreated, hne⟩
      simp only [hsources, if_true]
      exact ⟨_, by simp, rfl⟩

end RuntimeAnalyzer
