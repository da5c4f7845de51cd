import Mathlib.Order.Bounds.Basic
import RuntimeAnalyzer.Batch

/-!
# The exit code of a batch

`Accounts` is what the loop over the sources keeps: the counters and the verdict are those of the
tests so far. The exit code of a batch follows from it (`run_batch_reports_verdict`). What could not
be searched is only said in the diagnostics, so it shows in the exit code of a batch only by
accident (`incomplete_batch_iff`).
-/

namespace RuntimeAnalyzer

variable {tools : BatchTools} {options : AnalyzerOptions}

/-! ## Verdicts -/

theorem verdict_cases (result : AnalyzerResult) (runProgram : Bool) :
    verdict result runProgram = kExitNoFindings ∨ verdict result runProgram = kExitFindings ∨
      verdict result runProgram = kExitNotAnalyzed := by
  unfold verdict
  repeat' split
  all_goals simp

theorem verdict_bounds (result : AnalyzerResult) (runProgram : Bool) :
    kExitNoFindings ≤ verdict result runProgram ∧
      verdict result runProgram ≤ kExitNotAnalyzed := by
  have hcases := verdict_cases result runProgram
  unfold kExitNoFindings kExitFindings kExitNotAnalyzed at *
  omega

/-- The verdict is 0 when every check of `Verdict` passes. -/
theorem verdict_eq_zero {result : AnalyzerResult} {runProgram : Bool} :
    verdict result runProgram = kExitNoFindings ↔
      result.compileSuccess = true ∧ (runProgram = true → result.executed = true) ∧
        result.findings = [] ∧ result.timedOut = false := by
  unfold verdict
  split
  · rename_i hfails
    refine iff_of_false (by decide) fun hpasses => ?_
    cases hrun : runProgram with
    | false => simp [hpasses.1, hrun] at hfails
    | true => simp [hpasses.1, hrun, hpasses.2.1 hrun] at hfails
  · rename_i hran
    simp only [Bool.or_eq_true, Bool.not_eq_true', Bool.and_eq_true, not_or, not_and,
      Bool.not_eq_false] at hran
    split
    · rename_i hfindings
      exact iff_of_false (by decide) fun hpasses => hfindings hpasses.2.2.1
    · rename_i hfindings
      split
      · rename_i htimedOut
        exact iff_of_false (by decide) fun hpasses => by simp [hpasses.2.2.2] at htimedOut
      · rename_i hintime
        exact iff_of_true rfl ⟨hran.1, hran.2, by simpa using hfindings, by simpa using hintime⟩

/-- The program was built, came to its end if it was to run, and nothing was found. -/
def Clean (runProgram : Bool) (result : AnalyzerResult) : Prop :=
  result.compileSuccess = true ∧
    (runProgram = true → result.executed = true ∧ result.timedOut = false) ∧ result.findings = []

/-- For a program that is not run, nothing is timed out. -/
theorem verdict_eq_zero_iff_clean {result : AnalyzerResult} {runProgram : Bool}
    (h : result.timedOut = true → runProgram = true) :
    verdict result runProgram = kExitNoFindings ↔ Clean runProgram result := by
  rw [verdict_eq_zero]
  constructor
  · intro ⟨hcompile, hexecuted, hfindings, hintime⟩
    exact ⟨hcompile, fun hrun => ⟨hexecuted hrun, hintime⟩, hfindings⟩
  · intro ⟨hcompile, hran, hfindings⟩
    refine ⟨hcompile, fun hrun => (hran hrun).1, hfindings, ?_⟩
    by_contra htimedOut
    have hrun := h (by simpa using htimedOut)
    exact htimedOut (hran hrun).2

/-- A program that failed without being counted for it has a verdict that the strict flag does not
raise. -/
theorem verdict_of_failure {result : AnalyzerResult} (runProgram : Bool)
    (hfails : result.exitCode ≠ 0) (hcounted : failureOf result ≠ some .runtime) :
    kExitFindings ≤ verdict result runProgram := by
  rcases verdict_cases result runProgram with hzero | hone | htwo
  · obtain ⟨hcompile, _, _, hintime⟩ := verdict_eq_zero.mp hzero
    simp [failureOf, hcompile, hintime, hfails] at hcounted
  · exact hone.ge
  · unfold kExitFindings kExitNotAnalyzed at *
    omega

theorem exit_code_of_failure {result : AnalyzerResult} (h : failureOf result = some .runtime) :
    result.exitCode ≠ 0 := by
  unfold failureOf at h
  split at h
  · cases h
  · split at h
    · cases h
    · split at h
      · assumption
      · cases h

/-! ## The loop -/

/-- The counters and the verdict are those of the tests. -/
structure Accounts (options : AnalyzerOptions) (state : BatchResult × Int) : Prop where
  compileFailures : state.1.compileFailures =
    state.1.tests.countP (failureOf ·.analyzerResult = some .compile)
  timeouts : state.1.timeouts = state.1.tests.countP (failureOf ·.analyzerResult = some .timeout)
  runtimeFailures : state.1.runtimeFailures =
    state.1.tests.countP (failureOf ·.analyzerResult = some .runtime)
  least : kExitNoFindings ≤ state.2
  upper : ∀ test ∈ state.1.tests, verdict test.analyzerResult options.runProgram ≤ state.2
  attained : state.2 = kExitNoFindings ∨
    ∃ test ∈ state.1.tests, verdict test.analyzerResult options.runProgram = state.2

theorem accounts_start (diagnostics : Bytes) :
    Accounts options ({ diagnostics := diagnostics }, kExitNoFindings) :=
  ⟨rfl, rfl, rfl, le_refl _, (by simp), .inl rfl⟩

/-- One more test is counted once, under its own failure. -/
theorem count_failures (batch : BatchResult) (failure : Option Failure) :
    (batch.count failure).compileFailures =
        batch.compileFailures + (if failure = some .compile then 1 else 0) ∧
      (batch.count failure).timeouts = batch.timeouts + (if failure = some .timeout then 1 else 0) ∧
      (batch.count failure).runtimeFailures =
        batch.runtimeFailures + (if failure = some .runtime then 1 else 0) := by
  rcases failure with _ | failure
  · exact ⟨rfl, rfl, rfl⟩
  · cases failure <;> exact ⟨rfl, rfl, rfl⟩

/-- A turn of the loop keeps the accounts. -/
theorem accounts_step {state : BatchResult × Int} (h : Accounts options state) (source : Bytes) :
    Accounts options (testSource tools options state source) := by
  obtain ⟨hcompile, htimeout, hruntime⟩ :=
    count_failures state.1 (failureOf (runTest tools options source))
  have hcount : ∀ failure : Failure,
      (testSource tools options state source).1.tests.countP
          (failureOf ·.analyzerResult = some failure) =
        state.1.tests.countP (failureOf ·.analyzerResult = some failure) +
          if failureOf (runTest tools options source) = some failure then 1 else 0 := by
    intro failure
    simp [testSource, BatchResult.record, List.countP_append, List.countP_cons]
  refine ⟨?_, ?_, ?_, ?_, ?_, ?_⟩
  · rw [hcount, ← h.compileFailures]
    exact hcompile
  · rw [hcount, ← h.timeouts]
    exact htimeout
  · rw [hcount, ← h.runtimeFailures]
    exact hruntime
  · exact le_trans h.least (le_max_left _ _)
  · intro test hmem
    rcases List.mem_append.mp hmem with hmem | hmem
    · exact le_trans (h.upper test hmem) (le_max_left _ _)
    · rw [List.mem_singleton.mp hmem]
      exact le_max_right _ _
  -- The worst verdict is that of the new test, or of one before it.
  · rcases le_total state.2 (verdict (runTest tools options source) options.runProgram) with
      hle | hle
    · refine .inr ⟨⟨source, runTest tools options source⟩, by simp [testSource, BatchResult.record],
        (max_eq_right hle).symm⟩
    · have hsame : (testSource tools options state source).2 = state.2 := max_eq_left hle
      rw [hsame]
      rcases h.attained with hzero | ⟨test, hmem, hverdict⟩
      · exact .inl hzero
      · exact .inr ⟨test, List.mem_append_left _ hmem, hverdict⟩

/-- The loop keeps the accounts, and has one test for each source, in order. -/
theorem accounts_run (tools : BatchTools) (state : BatchResult × Int) (h : Accounts options state)
    (sources : List Bytes) :
    Accounts options (sources.foldl (testSource tools options) state) ∧
      (sources.foldl (testSource tools options) state).1.tests =
        state.1.tests ++ sources.map fun source => ⟨source, runTest tools options source⟩ := by
  induction sources generalizing state with
  | nil => exact ⟨h, (List.append_nil _).symm⟩
  | cons source sources ih =>
      obtain ⟨haccounts, htests⟩ := ih _ (accounts_step h source)
      refine ⟨haccounts, ?_⟩
      rw [List.foldl_cons, htests]
      simp [testSource, BatchResult.record]

/-! ## The exit code -/

/-- What the exit code of a batch says about its tests. -/
structure ReportsVerdict (options : AnalyzerOptions) (batch : BatchResult) : Prop where
  /-- It is the worst verdict, raised in strict mode when some program did not exit with 0. -/
  exitCode : ∃ worst,
    IsGreatest {v | ∃ test ∈ batch.tests, verdict test.analyzerResult options.runProgram = v}
        worst ∧
      batch.exitCode =
        if options.strictTestExit = true ∧ ∃ test ∈ batch.tests, test.analyzerResult.exitCode ≠ 0
        then max worst kExitFindings
        else worst
  range : batch.exitCode ∈ [kExitNoFindings, kExitFindings, kExitNotAnalyzed]
  clean : options.strictTestExit = false →
    (batch.exitCode = kExitNoFindings ↔
      ∀ test ∈ batch.tests, Clean options.runProgram test.analyzerResult)

/-- The verdict of the loop is the worst of the tests, if there are any. -/
theorem Accounts.greatest {state : BatchResult × Int} (h : Accounts options state)
    (htests : state.1.tests ≠ []) :
    IsGreatest {v | ∃ test ∈ state.1.tests, verdict test.analyzerResult options.runProgram = v}
      state.2 := by
  constructor
  -- The loop starts at 0, which is no more than any verdict.
  · rcases h.attained with hzero | hattained
    · obtain ⟨test, hmem⟩ := List.exists_mem_of_ne_nil _ htests
      refine ⟨test, hmem, le_antisymm (h.upper test hmem) ?_⟩
      rw [hzero]
      exact (verdict_bounds _ _).1
    · exact hattained
  · intro v hv
    obtain ⟨test, hmem, rfl⟩ := hv
    exact h.upper test hmem

/-- No program is counted for its exit code exactly when a non-zero one has a verdict of its own. -/
theorem Accounts.strict {state : BatchResult × Int} (h : Accounts options state) :
    (if state.1.runtimeFailures = 0 then state.2 else max state.2 kExitFindings) =
      if ∃ test ∈ state.1.tests, test.analyzerResult.exitCode ≠ 0 then max state.2 kExitFindings
      else state.2 := by
  by_cases hcounted : state.1.runtimeFailures = 0
  · rw [if_pos hcounted]
    -- A test that failed and was not counted did not build or was timed out.
    split
    · rename_i hfailed
      obtain ⟨test, hmem, hfails⟩ := hfailed
      rw [h.runtimeFailures, List.countP_eq_zero] at hcounted
      have hverdict :=
        verdict_of_failure options.runProgram hfails (by simpa using hcounted test hmem)
      exact (max_eq_left (le_trans hverdict (h.upper test hmem))).symm
    · rfl
  · rw [if_neg hcounted, if_pos]
    rw [h.runtimeFailures, ← ne_eq, ← Nat.pos_iff_ne_zero, List.countP_pos_iff] at hcounted
    obtain ⟨test, hmem, hfails⟩ := hcounted
    exact ⟨test, hmem, exit_code_of_failure (by simpa using hfails)⟩

theorem finish_exit_code (state : BatchResult × Int) :
    (finishBatch options state).exitCode =
      if options.strictTestExit = true then
        if state.1.runtimeFailures = 0 then state.2 else max state.2 kExitFindings
      else state.2 := by
  cases hstrict : options.strictTestExit <;> simp [finishBatch, hstrict]

/-- What follows the loop makes the exit code of the accounts. -/
theorem finish_reports_verdict {state : BatchResult × Int} (h : Accounts options state)
    (htests : state.1.tests ≠ [])
    (hrun : ∀ test ∈ state.1.tests, test.analyzerResult.timedOut = true →
      options.runProgram = true) :
    ReportsVerdict options (finishBatch options state) := by
  have hgreatest := h.greatest htests
  have hcases : state.2 = kExitNoFindings ∨ state.2 = kExitFindings ∨
      state.2 = kExitNotAnalyzed := by
    obtain ⟨test, _, hverdict⟩ := hgreatest.1
    rw [← hverdict]
    exact verdict_cases _ _
  refine ⟨⟨state.2, hgreatest, ?_⟩, ?_, ?_⟩
  · rw [finish_exit_code, h.strict]
    by_cases hstrict : options.strictTestExit = true <;> simp [hstrict, finishBatch]
  · rw [finish_exit_code]
    simp only [List.mem_cons, List.not_mem_nil, or_false]
    unfold kExitNoFindings kExitFindings kExitNotAnalyzed at *
    repeat' split
    all_goals omega
  · intro hstrict
    rw [finish_exit_code, hstrict, if_neg (by decide)]
    constructor
    · intro hzero test hmem
      rw [← verdict_eq_zero_iff_clean (hrun test hmem)]
      exact le_antisymm (hzero ▸ h.upper test hmem) (verdict_bounds _ _).1
    · intro hclean
      obtain ⟨test, hmem, hverdict⟩ := hgreatest.1
      rw [← hverdict, verdict_eq_zero_iff_clean (hrun test hmem)]
      exact hclean test hmem

/-- The exit code does not depend on the order of the tests. -/
theorem exit_code_of_perm {batch other : BatchResult} (h : ReportsVerdict options batch)
    (h' : ReportsVerdict options other) (hperm : batch.tests.Perm other.tests) :
    batch.exitCode = other.exitCode := by
  obtain ⟨worst, hgreatest, hcode⟩ := h.exitCode
  obtain ⟨worst', hgreatest', hcode'⟩ := h'.exitCode
  simp only [hperm.mem_iff] at hgreatest hcode
  rw [hcode, hcode', hgreatest.unique hgreatest']

/-- A program that is not run is not timed out. -/
theorem timed_out_run {tools : Tools} {options : AnalyzerOptions}
    (h : (run tools options).timedOut = true) : options.runProgram = true := by
  by_contra hrun
  by_cases hbuilds : Builds tools options
  · simp [run_of_compile_only hbuilds (by simpa using hrun), compiledResult] at h
  · obtain ⟨_, _, hdefaults⟩ := run_of_not_builds hbuilds
    simp [hdefaults] at h

/-- The loop over some sources, in any order. -/
theorem run_tests_reports_verdict (tools : BatchTools) (options : AnalyzerOptions)
    (diagnostics : Bytes) {sources : List Bytes} (hsources : sources ≠ []) :
    (runTests tools options diagnostics sources).tests =
        sources.map (fun source => ⟨source, runTest tools options source⟩) ∧
      ReportsVerdict options (runTests tools options diagnostics sources) := by
  obtain ⟨haccounts, htests⟩ :=
    accounts_run tools _ (accounts_start diagnostics) sources
  refine ⟨htests, finish_reports_verdict haccounts ?_ ?_⟩
  · rw [htests]
    simpa using hsources
  · intro test hmem htimedOut
    rw [htests] at hmem
    obtain ⟨source, _, rfl⟩ := List.mem_map.mp hmem
    exact @timed_out_run (tools.toolsFor source) (testOptions tools options source) htimedOut

/-- A batch that comes to its sources makes one test of each. -/
theorem tests_of_reached (h : Reached tools options) :
    (runBatch tools options).tests =
      (discoverSourceFiles tools options.testDirectories).1.map
        (fun source => ⟨source, runTest tools options source⟩) := by
  rw [run_batch_of_reached h]
  exact (run_tests_reports_verdict tools options _ h.2.2).1

/-- The exit code of a batch that comes to its sources reports the verdicts of their runs, whatever
the order they are run in. -/
theorem run_batch_reports_verdict (h : Reached tools options) :
    (runBatch tools options).tests =
        (discoverSourceFiles tools options.testDirectories).1.map
          (fun source => ⟨source, runTest tools options source⟩) ∧
      ReportsVerdict options (runBatch tools options) ∧
      ∀ diagnostics order, order.Perm (discoverSourceFiles tools options.testDirectories).1 →
        (runTests tools options diagnostics order).exitCode =
          (runBatch tools options).exitCode := by
  have hsources := h.2.2
  obtain ⟨htests, hreports⟩ := run_tests_reports_verdict tools options
    (discoverSourceFiles tools options.testDirectories).2 hsources
  rw [run_batch_of_reached h]
  refine ⟨htests, hreports, fun diagnostics order hperm => ?_⟩
  have horder : order ≠ [] := by
    rintro rfl
    exact hsources hperm.nil_eq.symm
  obtain ⟨htests', hreports'⟩ := run_tests_reports_verdict tools options diagnostics horder
  refine exit_code_of_perm hreports' hreports ?_
  rw [htests, htests']
  exact hperm.map _

/-- A directory with one source, which builds and exits with 0, next to one that is not there. -/
def oneSource : BatchTools where
  createDirectories _ := none
  pathExists directory := directory = lit "tests"
  isDirectory directory := directory = lit "tests"
  scan _ := { entries := [(lit "tests/main.c", true), (lit "tests/notes.txt", true)] }
  relative source := some source
  readSmallTextFile _ := lit "int main(void) { return 0; }"
  toolsFor _ :=
    { compile := fun _ => { success := true }
      runProcess := fun _ => { exitCode := 0 }
      absolute := some }

/-- A source that does not build, before one that builds and exits with 3. -/
def twoSources : BatchTools :=
  { oneSource with
    scan := fun _ => { entries := [(lit "tests/main.c", true), (lit "tests/bad.c", true)] }
    toolsFor := fun source =>
      { compile := fun _ => { success := source ≠ lit "tests/bad.c" }
        runProcess := fun _ => { exitCode := 3 }
        absolute := some } }

/-- The first decides on the exit code of a strict batch, and does so in the other order too. -/
theorem run_batch_reports_two_sources :
    let options : AnalyzerOptions := { testDirectories := [lit "tests"], strictTestExit := true }
    (runBatch twoSources options).tests.map (verdict ·.analyzerResult true) =
        [kExitNotAnalyzed, kExitNoFindings] ∧
      ReportsVerdict options (runBatch twoSources options) ∧
      (runBatch twoSources options).exitCode = kExitNotAnalyzed ∧
      (runTests twoSources options [] [lit "tests/main.c", lit "tests/bad.c"]).exitCode =
        kExitNotAnalyzed := by
  intro options
  obtain ⟨htests, hreports, horder⟩ :=
    @run_batch_reports_verdict twoSources options (by decide)
  have hcode : (runBatch twoSources options).exitCode = kExitNotAnalyzed := by decide
  refine ⟨?_, hreports, hcode, ?_⟩
  · rw [htests]
    decide
  · rw [horder [] [lit "tests/main.c", lit "tests/bad.c"] (by decide), hcode]

/-! ## Directories that could not be searched -/

/-- The directory does not exist, is not one, or its scan stops with an error. -/
def Unsearched (tools : BatchTools) (directory : Bytes) : Prop :=
  tools.pathExists directory = false ∨ tools.isDirectory directory = false ∨
    (tools.scan directory).error ≠ none

/-- The run does not build, does not run what it should, or is killed before anything is found. -/
def NotAnalyzed (tools : Tools) (options : AnalyzerOptions) : Prop :=
  ¬ Builds tools options ∨
    options.runProgram = true ∧
      ((processOf tools options).error ≠ [] ∨
        (processOf tools options).timedOut = true ∧ outputFindings (processOf tools options) = [])

theorem verdict_not_analyzed_iff {tools : Tools} {options : AnalyzerOptions} :
    verdict (run tools options) options.runProgram = kExitNotAnalyzed ↔
      NotAnalyzed tools options := by
  unfold NotAnalyzed
  by_cases hbuilds : Builds tools options
  · cases hrun : options.runProgram with
    | false =>
        have hverdict := verdict_of_compile_only hbuilds hrun
        rw [hrun] at hverdict
        rw [hverdict]
        exact iff_of_false (by decide) (by simp [hbuilds])
    | true =>
        have hverdict := verdict_of_launch hbuilds hrun
        rw [hrun] at hverdict
        rw [hverdict]
        by_cases herror : (processOf tools options).error = []
        · by_cases hfindings : outputFindings (processOf tools options) = []
          · cases htimedOut : (processOf tools options).timedOut <;>
              simp [hbuilds, herror, hfindings, kExitNotAnalyzed, kExitNoFindings]
          · simp [hbuilds, herror, hfindings, kExitNotAnalyzed, kExitFindings]
        · simp [herror]
  · exact iff_of_true (verdict_of_not_builds hbuilds _) (.inl hbuilds)

/-- The exit code 2 is the verdict of a test. -/
theorem ReportsVerdict.not_analyzed_iff {batch : BatchResult} (h : ReportsVerdict options batch) :
    batch.exitCode = kExitNotAnalyzed ↔
      ∃ test ∈ batch.tests,
        verdict test.analyzerResult options.runProgram = kExitNotAnalyzed := by
  obtain ⟨worst, ⟨⟨last, hlast, hworst⟩, hupper⟩, hcode⟩ := h.exitCode
  have hraised : max worst kExitFindings = kExitNotAnalyzed ↔ worst = kExitNotAnalyzed := by
    unfold kExitFindings kExitNotAnalyzed
    omega
  have hexit : batch.exitCode = kExitNotAnalyzed ↔ worst = kExitNotAnalyzed := by
    rw [hcode]
    split
    · exact hraised
    · exact Iff.rfl
  rw [hexit]
  constructor
  · intro hequal
    exact ⟨last, hlast, hworst.trans hequal⟩
  · intro hfails
    obtain ⟨test, hmem, hverdict⟩ := hfails
    refine le_antisymm ?_ (hverdict ▸ hupper ⟨test, hmem, rfl⟩)
    rw [← hworst]
    exact (verdict_bounds _ _).2

/-- A batch has the exit code 2 exactly when it does not come to a source, or the run of a source
is not analyzed. -/
theorem batch_not_analyzed_iff :
    (runBatch tools options).exitCode = kExitNotAnalyzed ↔
      ¬ Reached tools options ∨
        ∃ source ∈ (discoverSourceFiles tools options.testDirectories).1,
          NotAnalyzed (tools.toolsFor source) (testOptions tools options source) := by
  by_cases hreached : Reached tools options
  · obtain ⟨htests, hreports⟩ := run_tests_reports_verdict tools options
      (discoverSourceFiles tools options.testDirectories).2 hreached.2.2
    rw [run_batch_of_reached hreached, hreports.not_analyzed_iff, htests]
    simp only [List.mem_map, exists_exists_and_eq_and, hreached, not_true_eq_false, false_or]
    refine exists_congr fun source => and_congr_right fun _ => ?_
    exact @verdict_not_analyzed_iff (tools.toolsFor source) (testOptions tools options source)
  · obtain ⟨_, _, hdefaults⟩ := run_batch_of_not_reached hreached
    exact iff_of_true (by rw [hdefaults]; rfl) (.inl hreached)

/-- A batch that could not search a directory has the exit code 2 exactly when it has it for
another reason. -/
theorem incomplete_batch_iff :
    ((∃ directory ∈ options.testDirectories, Unsearched tools directory) →
        (runBatch tools options).exitCode = kExitNotAnalyzed) ↔
      (∀ directory ∈ options.testDirectories, ¬ Unsearched tools directory) ∨
        ¬ Reached tools options ∨
          ∃ source ∈ (discoverSourceFiles tools options.testDirectories).1,
            NotAnalyzed (tools.toolsFor source) (testOptions tools options source) := by
  rw [batch_not_analyzed_iff, imp_iff_not_or]
  simp only [not_exists, not_and]

/-- A directory that does not exist, next to one whose only source is clean. -/
theorem absent_directory_is_clean :
    Unsearched oneSource (lit "absent") ∧
      (runBatch oneSource { testDirectories := [lit "absent", lit "tests"] }).exitCode ≠
        kExitNotAnalyzed := by
  refine ⟨.inl (by decide), ?_⟩
  rw [ne_eq, batch_not_analyzed_iff]
  have hsources : (discoverSourceFiles oneSource [lit "absent", lit "tests"]).1 =
      [lit "tests/main.c"] := by decide
  intro hfails
  rcases hfails with hreached | ⟨source, hmem, hfails⟩
  · exact hreached (by decide)
  · obtain rfl : source = lit "tests/main.c" := by simpa [hsources] using hmem
    rcases hfails with hbuilds | ⟨_, herror | ⟨htimedOut, _⟩⟩
    · exact hbuilds (by decide)
    · exact herror rfl
    · cases htimedOut

end RuntimeAnalyzer
