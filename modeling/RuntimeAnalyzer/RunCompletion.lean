import RuntimeAnalyzer.Process.Deadline
import RuntimeAnalyzer.Process.Outcome
import RuntimeAnalyzer.Run

/-!
# Runs that were not completed

What a run reports when its program was not started or did not come to its end: the runner's events
on one side, the result and the verdict on the other. The child tells of a program that it could
not start by an exit status alone, so the parent reports it only when one of its own calls fails
too (`start_failure_reported_iff`). Success is read off the exit code alone, so a program that
exits with 0 and leaves a process behind which holds its output until the deadline is a success
that timed out (`success_means_completed_iff`).
-/

namespace RuntimeAnalyzer

open Process

variable {tools : Tools} {options : AnalyzerOptions} {strerror : Errno → Bytes} {clock : Int}
  {events : List Event}

/-- What the process runner is asked for in a run. -/
def runContext (tools : Tools) (options : AnalyzerOptions) (strerror : Errno → Bytes) :
    Context where
  spec := processSpec tools options (buildCompilerArguments options).2
  strerror := strerror

/-! ## Programs that were not started -/

/-- The run says that its program was not analyzed. -/
structure ReportsNotAnalyzed (tools : Tools) (options : AnalyzerOptions) : Prop where
  error : (processOf tools options).error ≠ []
  notExecuted : (run tools options).executed = false
  verdict : verdict (run tools options) true = kExitNotAnalyzed

/-- A run that launches its program reports it as not analyzed exactly when the runner answers with
an error. -/
theorem reports_not_analyzed_iff (hbuilds : Builds tools options)
    (hrun : options.runProgram = true) :
    ReportsNotAnalyzed tools options ↔ (processOf tools options).error ≠ [] := by
  constructor
  · exact ReportsNotAnalyzed.error
  · intro herror
    have hverdict := verdict_of_launch hbuilds hrun
    rw [if_pos herror, hrun] at hverdict
    exact ⟨herror, by simp [run_of_launch hbuilds hrun, herror], hverdict⟩

/-- A program that could not be started is reported exactly when `select` or `waitpid` fails in the
parent as well. -/
theorem start_failure_reported_iff (hbuilds : Builds tools options)
    (hrun : options.runProgram = true)
    (hreturns : Returns (runContext tools options strerror) clock events (processOf tools options))
    (hstart : ∃ event ∈ events, event.startFails = true) :
    ReportsNotAnalyzed tools options ↔ ∃ event ∈ events, event.fails = true := by
  have hended : ∃ event ∈ events, ∃ status, event.endStatus = some status := by
    obtain ⟨event, hmem, hfails⟩ := hstart
    exact ⟨event, hmem, end_status_of_start_fails hfails⟩
  rw [reports_not_analyzed_iff hbuilds hrun, returned_error_iff hreturns hended]

/-- Tools under which every program compiles and the runner gives one answer. -/
def toolsAnswering (process : ProcessResult) : Tools where
  compile _ := { success := true }
  runProcess _ := process
  absolute path := some path

/-- The binary is gone when the child comes to `execv`; the last event is the answer of
`waitpid`. -/
def startsNothing (answer : Event) : List Event :=
  [.pipe none, .pipe none, .fcntl true true, .fork none, .setpgid, .exec (some .enoent), .proceed,
    .proceed, .selectReady, .readEof, .readEof, .proceed, answer]

/-- `ECHILD`: the caller of the analyzer ignores SIGCHLD. -/
def echild : Errno := .other 10

/-- The parent's own failure is what makes the missing program known. -/
theorem start_failure_reported_no_child :
    ReportsNotAnalyzed (toolsAnswering { error := lit "waitpid failed: No child processes" })
      ({} : AnalyzerOptions) := by
  refine (@start_failure_reported_iff _ _ (fun _ => lit "No child processes") 0
    (startsNothing (.waitFailed echild)) ?_ rfl ?_ ?_).mpr ?_
  · decide
  · exact ⟨_, rfl, by decide, by decide⟩
  · exact ⟨.exec (some .enoent), by decide, rfl⟩
  · exact ⟨.waitFailed echild, by decide, by decide⟩

/-- A program that could not be started exits with 127, and the verdict is 0. -/
theorem missing_program_is_clean :
    Returns (runContext (toolsAnswering { exitCode := 127 }) {} fun _ => []) 0
        (startsNothing .waited) (processOf (toolsAnswering { exitCode := 127 }) {}) ∧
      ¬ ReportsNotAnalyzed (toolsAnswering { exitCode := 127 }) ({} : AnalyzerOptions) ∧
      verdict (run (toolsAnswering { exitCode := 127 }) {}) true = kExitNoFindings := by
  have hbuilds : Builds (toolsAnswering { exitCode := 127 }) {} := by decide
  refine ⟨⟨_, rfl, by decide, by decide⟩, ?_, ?_⟩
  · rw [reports_not_analyzed_iff hbuilds rfl]
    exact fun herror => herror rfl
  · have hfindings : outputFindings (processOf (toolsAnswering { exitCode := 127 }) {}) = [] := by
      decide
    have hverdict := verdict_of_launch hbuilds rfl
    rw [hfindings] at hverdict
    exact hverdict

/-! ## Success -/

/-- A result that claims success is that of a completed run. -/
structure SuccessMeansCompleted (options : AnalyzerOptions) (result : AnalyzerResult) : Prop where
  completed : result.success = true → result.compileSuccess = true ∧ result.exitCode = 0 ∧
    result.timedOut = false ∧ (options.runProgram = true → result.executed = true)
  timedOut : result.timedOut = true → result.success = false
  notAnalyzed : verdict result options.runProgram = kExitNotAnalyzed → result.success = false

/-- A completed run that is a success has not verdict 2, whatever it found. -/
theorem success_means_completed_of {result : AnalyzerResult}
    (h : result.success = true → result.compileSuccess = true ∧ result.exitCode = 0 ∧
      result.timedOut = false ∧ (options.runProgram = true → result.executed = true)) :
    SuccessMeansCompleted options result := by
  refine ⟨h, fun htimedOut => ?_, fun hverdict => ?_⟩
  · by_contra hsuccess
    simp [(h (by simpa using hsuccess)).2.2.1] at htimedOut
  · by_contra hsuccess
    obtain ⟨hcompile, _, htimedOut, hexecuted⟩ := h (by simpa using hsuccess)
    have hran : (options.runProgram && !result.executed) = false := by
      cases hrun : options.runProgram with
      | true => simp [hexecuted hrun]
      | false => rfl
    by_cases hfindings : result.findings = [] <;>
      simp [verdict, hcompile, hran, htimedOut, hfindings, kExitNotAnalyzed, kExitFindings,
        kExitNoFindings] at hverdict

/-- A run claims success of what it did not complete only when the runner answers 0 after a timeout
and without an error. -/
theorem success_means_completed_run_iff :
    SuccessMeansCompleted options (run tools options) ↔
      ¬ (Builds tools options ∧ options.runProgram = true ∧ (processOf tools options).error = [] ∧
        (processOf tools options).exitCode = 0 ∧ (processOf tools options).timedOut = true) := by
  by_cases hbuilds : Builds tools options
  · cases hrun : options.runProgram with
    | false =>
        refine iff_of_true (success_means_completed_of fun _ => ?_) (by simp)
        simp [run_of_compile_only hbuilds hrun, compiledResult, hrun]
    | true =>
        have hsuccess : (run tools options).success = true ↔
            (processOf tools options).error = [] ∧ (processOf tools options).exitCode = 0 := by
          rw [run_of_launch hbuilds hrun, finish_run_success]
          by_cases herror : (processOf tools options).error = [] <;>
            simp [herror, compiledResult]
        have htimed : (run tools options).timedOut = (processOf tools options).timedOut := by
          rw [run_of_launch hbuilds hrun, finish_run_timed_out]
        -- Success looks at the exit code and `error`, and at nothing else.
        constructor
        · intro h hfails
          obtain ⟨_, _, herror, hcode, htimedOut⟩ := hfails
          have hfalse := h.timedOut (htimed.trans htimedOut)
          simp [hsuccess.mpr ⟨herror, hcode⟩] at hfalse
        · intro h
          refine success_means_completed_of fun hclaimed => ?_
          obtain ⟨herror, hcode⟩ := hsuccess.mp hclaimed
          have hintime : (processOf tools options).timedOut = false := by
            by_contra htimedOut
            exact h ⟨hbuilds, rfl, herror, hcode, by simpa using htimedOut⟩
          simp [run_of_launch hbuilds hrun, compiledResult, herror, hcode, hintime]
  · obtain ⟨_, _, hdefaults⟩ := run_of_not_builds hbuilds
    refine iff_of_true (success_means_completed_of fun hsuccess => ?_) (by simp [hbuilds])
    simp [hdefaults] at hsuccess

/-- A run claims success only of what it completed, unless the program exits with 0, the deadline
branch is taken all the same, and no call of the parent fails. -/
theorem success_means_completed_iff
    (hreturns : Builds tools options → options.runProgram = true →
      Returns (runContext tools options strerror) clock events (processOf tools options)) :
    SuccessMeansCompleted options (run tools options) ↔
      ¬ (Builds tools options ∧ options.runProgram = true ∧ .selectTimedOut ∈ events ∧
        .exit 0 ∈ events ∧ ∀ event ∈ events, event.fails = false) := by
  rw [success_means_completed_run_iff]
  refine not_congr (and_congr_right fun hbuilds => and_congr_right fun hrun => ?_)
  have hreturned := hreturns hbuilds hrun
  rw [← and_assoc, returned_zero_iff hreturned, returned_timed_out_iff hreturned, and_comm]

/-- A limit of one second. -/
def limited : AnalyzerOptions :=
  { timeout := 1000 }

/-- A program killed at the deadline is no success. -/
theorem success_means_completed_hanging :
    SuccessMeansCompleted limited
      (run (toolsAnswering { exitCode := 137, timedOut := true }) limited) := by
  refine (@success_means_completed_iff _ _ (fun _ => []) 0 (hangs ++ [.signaled 9, .waited])
    fun _ _ => ⟨_, rfl, by decide, by decide⟩).mpr ?_
  intro hfails
  have hexits : Event.exit 0 ∉ hangs ++ [.signaled 9, .waited] := by decide
  exact hexits hfails.2.2.2.1

/-- The program leaves a process behind that keeps stdout, and exits with 0. -/
def leavesProcessBehind : List Event :=
  started ++
    [.proceed, .inherit .stdout, .exit 0, .selectReady, .readEof, .proceed, .tick 1000000000,
      .selectTimedOut, .readFailed .eagain, .waited]

/-- That program is a success that timed out. -/
theorem timed_out_with_success :
    Returns (runContext (toolsAnswering { exitCode := 0, timedOut := true }) limited fun _ => []) 0
        leavesProcessBehind
          (processOf (toolsAnswering { exitCode := 0, timedOut := true }) limited) ∧
      ¬ SuccessMeansCompleted limited
        (run (toolsAnswering { exitCode := 0, timedOut := true }) limited) := by
  refine ⟨⟨_, rfl, by decide, by decide⟩, ?_⟩
  rw [success_means_completed_run_iff]
  exact fun h => h ⟨by decide, rfl, rfl, rfl, rfl⟩

end RuntimeAnalyzer
