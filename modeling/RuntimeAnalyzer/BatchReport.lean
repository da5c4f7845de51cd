import RuntimeAnalyzer.BatchVerdict
import RuntimeAnalyzer.Report
import RuntimeAnalyzer.RunCompletion

/-!
# The text summary of a batch

What `PrintBatchResult` writes, with the tag it gives each test. The tags look at `success` and the
counters of `RunBatch` at `exit_code`. A run keeps the two together except where the process runner
answers with an error, and there they differ when the program's status is 0
(`status_agrees_iff`).
-/

namespace RuntimeAnalyzer

/-! ## The summary -/

/-- The failure a test is tagged with, if any. -/
def statusOf (analyzer : AnalyzerResult) : Option Failure :=
  if !analyzer.compileSuccess then some .compile
  else if analyzer.timedOut then some .timeout
  else if !analyzer.success then some .runtime
  else none

/-- The text of a tag. -/
def statusText : Option Failure → Bytes
  | none => lit "PASS"
  | some .compile => lit "COMPILE"
  | some .timeout => lit "TIMEOUT"
  | some .runtime => lit "RUNTIME"

/-- How the line of a test starts. -/
def tagLine (status : Option Failure) : Bytes :=
  lit "runtime-analyzer: [" ++ statusText status ++ lit "] "

/-- What the loop body of `PrintBatchResult` writes. -/
def printTest (options : AnalyzerOptions) (test : TestFileResult) : Bytes :=
  let analyzer := test.analyzerResult
  tagLine (statusOf analyzer) ++ test.sourcePath ++ lit " exit_code=" ++
    toText analyzer.exitCode ++ lit " coretrace_lines=" ++
    Decimal.render analyzer.summary.coretraceLines ++ lit " binary=" ++ analyzer.outputPath ++
    lit "\n" ++ printFindings analyzer.findings (lit "  ") ++
    if options.showEvents && analyzer.coretraceEvents ≠ [] then
      analyzer.coretraceEvents.flatMap fun event => lit "  " ++ event ++ lit "\n"
    else []

/-- A line of the totals. -/
def printTotal (name : Bytes) (total : Nat) : Bytes :=
  lit "  " ++ name ++ lit "=" ++ Decimal.render total ++ lit "\n"

/-- What `PrintBatchResult` writes. -/
def printBatchResult (result : BatchResult) (options : AnalyzerOptions) : Bytes :=
  lit "runtime-analyzer: batch\n" ++ printTotal (lit "tests") result.tests.length ++
    printTotal (lit "compile_failures") result.compileFailures ++
    printTotal (lit "runtime_failures") result.runtimeFailures ++
    printTotal (lit "timeouts") result.timeouts ++
    printTotal (lit "coretrace_lines") result.summary.coretraceLines ++
    printTotal (lit "entry_events") result.summary.entryEvents ++
    printTotal (lit "exit_events") result.summary.exitEvents ++
    printTotal (lit "allocation_events") result.summary.allocationEvents ++
    printTotal (lit "bounds_errors") result.summary.boundsErrors ++
    printTotal (lit "leak_reports") result.summary.leakReports ++
    printTotal (lit "vtable_events") result.summary.vtableEvents ++
    printTotal (lit "warnings") result.summary.warnings ++
    printTotal (lit "errors") result.summary.errors ++
    result.tests.flatMap (printTest options)

/-! ## Tags -/

/-- The text of the test starts with this tag. -/
def isTagged (options : AnalyzerOptions) (status : Option Failure) (test : TestFileResult) : Bool :=
  startsWith (printTest options test) (tagLine status)

/-- No tag is the start of another. -/
theorem tag_line_inj {status other : Option Failure} (h : tagLine status <+: tagLine other) :
    status = other := by
  rcases status with _ | status <;> rcases other with _ | other
  · rfl
  · cases other <;> exact absurd h (by decide)
  · cases status <;> exact absurd h (by decide)
  · cases status <;> cases other <;> first | rfl | exact absurd h (by decide)

/-- A test has one tag. -/
theorem is_tagged_iff {options : AnalyzerOptions} {status : Option Failure}
    {test : TestFileResult} :
    isTagged options status test = true ↔ statusOf test.analyzerResult = status := by
  obtain ⟨rest, hrest⟩ : ∃ rest, printTest options test =
      tagLine (statusOf test.analyzerResult) ++ rest := by
    unfold printTest
    simp only [List.append_assoc]
    exact ⟨_, rfl⟩
  rw [isTagged, startsWith_iff, hrest]
  constructor
  · intro h
    rcases Nat.le_total (tagLine status).length
      (tagLine (statusOf test.analyzerResult)).length with hle | hle
    · exact (tag_line_inj
        (List.prefix_of_prefix_length_le h (List.prefix_append _ _) hle)).symm
    · exact tag_line_inj (List.prefix_of_prefix_length_le (List.prefix_append _ _) h hle)
  · rintro rfl
    exact List.prefix_append _ _

/-! ## Tags and counters -/

/-- The tags of a batch are its counters. -/
structure StatusAgrees (options : AnalyzerOptions) (batch : BatchResult) : Prop where
  compile : batch.tests.countP (isTagged options (some .compile)) = batch.compileFailures
  timeout : batch.tests.countP (isTagged options (some .timeout)) = batch.timeouts
  runtime : batch.tests.countP (isTagged options (some .runtime)) = batch.runtimeFailures
  /-- The tests that are counted nowhere are those that pass. -/
  pass : ∀ test ∈ batch.tests,
    isTagged options none test = true ↔ failureOf test.analyzerResult = none

/-- The process runner answers with an error, in time, and with the program's status 0. -/
def HidesError (process : ProcessResult) : Prop :=
  process.error ≠ [] ∧ process.timedOut = false ∧ process.exitCode = 0

/-- A tag and a counter look at different fields of a result. -/
theorem status_eq_failure_iff {analyzer : AnalyzerResult}
    (h : analyzer.success = true → analyzer.exitCode = 0) :
    statusOf analyzer = failureOf analyzer ↔
      ¬ (analyzer.compileSuccess = true ∧ analyzer.timedOut = false ∧ analyzer.success = false ∧
        analyzer.exitCode = 0) := by
  cases hcompile : analyzer.compileSuccess <;> cases htimedOut : analyzer.timedOut <;>
    cases hsuccess : analyzer.success <;> by_cases hcode : analyzer.exitCode = 0 <;>
    simp_all [statusOf, failureOf]

/-- The tag of a run is its counter unless it executes and the runner hides an error. -/
theorem run_status_iff {tools : Tools} {options : AnalyzerOptions} :
    statusOf (run tools options) = failureOf (run tools options) ↔
      ¬ (Builds tools options ∧ options.runProgram = true ∧
        HidesError (processOf tools options)) := by
  by_cases hbuilds : Builds tools options
  · cases hrun : options.runProgram with
    | false =>
        simp [run_of_compile_only hbuilds hrun, compiledResult, statusOf, failureOf]
    | true =>
        rw [run_of_launch hbuilds hrun, status_eq_failure_iff, not_iff_not]
        · simp only [finish_run_compile_success, finish_run_timed_out, finish_run_exit_code,
            finish_run_success, HidesError, hbuilds, true_and]
          by_cases herror : (processOf tools options).error = [] <;>
            simp +contextual [herror, compiledResult]
        · rw [finish_run_success, finish_run_exit_code]
          by_cases herror : (processOf tools options).error = [] <;> simp [herror, compiledResult]
  · obtain ⟨_, _, hdefaults⟩ := run_of_not_builds hbuilds
    simp [hdefaults, hbuilds, statusOf, failureOf]

variable {tools : BatchTools} {options : AnalyzerOptions}

theorem test_status_iff (source : Bytes) :
    statusOf (runTest tools options source) = failureOf (runTest tools options source) ↔
      ¬ (Builds (tools.toolsFor source) (testOptions tools options source) ∧
        options.runProgram = true ∧
        HidesError (processOf (tools.toolsFor source) (testOptions tools options source))) :=
  @run_status_iff (tools.toolsFor source) (testOptions tools options source)

/-- The tags are the counters when every test is tagged as it is counted. -/
theorem status_agrees_of_accounts {state : BatchResult × Int} (h : Accounts options state) :
    StatusAgrees options (finishBatch options state) ↔
      ∀ test ∈ state.1.tests, statusOf test.analyzerResult = failureOf test.analyzerResult := by
  constructor
  -- A test that is tagged otherwise is counted nowhere, and not tagged as passed.
  · intro hagrees test hmem
    have hpass := hagrees.pass test hmem
    rw [is_tagged_iff] at hpass
    unfold statusOf failureOf at *
    cases hcompile : test.analyzerResult.compileSuccess <;>
      cases htimedOut : test.analyzerResult.timedOut <;>
      cases hsuccess : test.analyzerResult.success <;>
      by_cases hcode : test.analyzerResult.exitCode = 0 <;> simp_all
  · intro hsame
    have hcount : ∀ failure : Failure, state.1.tests.countP (isTagged options (some failure)) =
        state.1.tests.countP (failureOf ·.analyzerResult = some failure) := by
      intro failure
      refine List.countP_congr fun test hmem => ?_
      rw [is_tagged_iff, hsame test hmem, decide_eq_true_iff]
    exact ⟨(hcount _).trans h.compileFailures.symm, (hcount _).trans h.timeouts.symm,
      (hcount _).trans h.runtimeFailures.symm,
      fun test hmem => by rw [is_tagged_iff, hsame test hmem]⟩

/-- The tags of a batch are its counters exactly when no runner's answer hides an error. -/
theorem status_agrees_iff (tools : BatchTools) (options : AnalyzerOptions) :
    StatusAgrees options (runBatch tools options) ↔
      (Reached tools options → options.runProgram = true →
        ∀ source ∈ (discoverSourceFiles tools options.testDirectories).1,
          Builds (tools.toolsFor source) (testOptions tools options source) →
            ¬ HidesError
              (processOf (tools.toolsFor source) (testOptions tools options source))) := by
  by_cases hreached : Reached tools options
  · obtain ⟨haccounts, htests⟩ := accounts_run tools _
      (accounts_start (discoverSourceFiles tools options.testDirectories).2)
      (discoverSourceFiles tools options.testDirectories).1
    rw [run_batch_of_reached hreached, runTests, status_agrees_of_accounts haccounts, htests]
    simp only [List.nil_append, List.forall_mem_map, test_status_iff, hreached, true_imp_iff]
    constructor
    · intro h hrun source hmem hbuilds hhides
      exact h source hmem ⟨hbuilds, hrun, hhides⟩
    · intro h source hmem hhides
      exact h hhides.2.1 source hmem hhides.1 hhides.2.2
  · obtain ⟨_, _, hdefaults⟩ := run_batch_of_not_reached hreached
    refine iff_of_true ?_ fun h => absurd h hreached
    rw [hdefaults]
    exact ⟨rfl, rfl, rfl, by simp⟩

/-! ## A failed `select` -/

/-- `EINVAL` -/
def einval : Process.Errno := .other 22

/-- `select` fails while the program runs, which then exits with 0. -/
def selectFails : List Process.Event :=
  Process.started ++ [.proceed, .selectFailed einval, .exit 0, .waited]

/-- What the runner answers then. -/
def failedSelect : ProcessResult :=
  { exitCode := 0, error := lit "select failed: Invalid argument" }

/-- The batch of one source in which that happens. -/
def selectFailsOnce : BatchTools :=
  { oneSource with toolsFor := fun _ => toolsAnswering failedSelect }

/-- The test is tagged as a failure and counted as none. -/
theorem failed_select_not_counted :
    Process.Returns ⟨{ timeout := 60000 }, fun _ => lit "Invalid argument"⟩ 0 selectFails
        failedSelect ∧
      ¬ StatusAgrees { testDirectories := [lit "tests"] }
        (runBatch selectFailsOnce { testDirectories := [lit "tests"] }) := by
  exact ⟨⟨_, rfl, by decide, by decide⟩, fun hagrees => absurd hagrees.runtime (by decide)⟩

end RuntimeAnalyzer
