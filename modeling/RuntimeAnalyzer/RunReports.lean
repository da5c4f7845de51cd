import RuntimeAnalyzer.Findings.Reports
import RuntimeAnalyzer.Run

/-!
# Reports and the verdict of a run

Whether a run can lose a report. `no_report_lost_iff` says that none is lost exactly when the
parser examines every report line of the output: it does not inside an open box, nor for an
indented line that follows a bounds report, nor for a line that itself opens a box.
-/

namespace RuntimeAnalyzer

/-- A program was executed only if the run built it, was to run it, and the runner saw no error. -/
theorem executed_iff {tools : Tools} {options : AnalyzerOptions} :
    (run tools options).executed = true ↔
      Builds tools options ∧ options.runProgram = true ∧ (processOf tools options).error = [] := by
  by_cases hbuilds : Builds tools options
  · cases hrun : options.runProgram with
    | false => simp [run_of_compile_only hbuilds hrun, compiledResult]
    | true => simp [run_of_launch hbuilds hrun, hbuilds]
  · obtain ⟨_, _, hdefaults⟩ := run_of_not_builds hbuilds
    simp [hdefaults, hbuilds]

/-- The findings of an executed program are those in its output. -/
theorem findings_of_executed {tools : Tools} {options : AnalyzerOptions}
    (h : (run tools options).executed = true) :
    (run tools options).findings =
      parseFindings (stripAnsi (run tools options).stdoutText) ++
        parseFindings (stripAnsi (run tools options).stderrText) := by
  obtain ⟨hbuilds, hrun, herror⟩ := executed_iff.mp h
  rw [run_of_launch hbuilds hrun, finish_run_findings, if_pos herror, finish_run_stdout_text,
    finish_run_stderr_text, outputFindings]

/-- No report in an output is lost: the parser recognizes every report line, there are at least as
many findings as report lines, and no executed program that printed one is clean. -/
structure NoReportLost (output : Bytes) : Prop where
  recognized : ∀ before line after, linesOf output = before ++ line :: after →
    ReportLine line → Recognized output before line
  counted : (linesOf output).countP (decide <| ReportLine ·) ≤ (parseFindings output).length
  notClean : ∀ (tools : Tools) (options : AnalyzerOptions) (runProgram : Bool),
    (run tools options).compileSuccess = true → (run tools options).executed = true →
    (stripAnsi (run tools options).stdoutText = output ∨
      stripAnsi (run tools options).stderrText = output) →
    (∃ line ∈ linesOf output, ReportLine line) →
    verdict (run tools options) runProgram ≠ kExitNoFindings

/-- A result with findings of a program that was executed does not have verdict 0. -/
theorem verdict_ne_of_findings {result : AnalyzerResult} (h : result.findings ≠ [])
    (runProgram : Bool) : verdict result runProgram ≠ kExitNoFindings := by
  rw [verdict, if_pos h]
  split <;> decide

/-- No report in an output is lost exactly when the parser examines all its report lines. -/
theorem no_report_lost_iff (output : Bytes) : NoReportLost output ↔ ReportsExamined output := by
  constructor
  · intro h before line after hlines hline
    exact (recognized_line_iff hlines hline.2.1).mp (h.recognized before line after hlines hline)
  · intro h
    refine ⟨fun before line after hlines hline =>
      (recognized_line_iff hlines hline.2.1).mpr (h before line after hlines hline),
      report_lines_le h, ?_⟩
    intro tools options runProgram _ hexecuted hstream hreport
    have hfound : parseFindings output ≠ [] := by
      have hcount : 0 < (linesOf output).countP (decide <| ReportLine ·) := by
        rw [List.countP_pos_iff]
        simpa using hreport
      exact List.ne_nil_of_length_pos (Nat.lt_of_lt_of_le hcount (report_lines_le h))
    refine verdict_ne_of_findings ?_ runProgram
    rw [findings_of_executed hexecuted]
    rcases hstream with hstream | hstream
    · exact List.append_ne_nil_of_left_ne_nil (hstream ▸ hfound) _
    · exact List.append_ne_nil_of_right_ne_nil _ (hstream ▸ hfound)

/-- A box that another thread's report interrupts before its first row, in a program that then
aborts. -/
def interruptedBox : Bytes :=
  lit "==ct== [WARN] [VTABLE]\n" ++ lit "==ct== ct: leak ptr=1"

/-- Tools under which every program compiles and prints a given text on stderr. -/
def toolsPrinting (stderrText : Bytes) : Tools where
  compile _ := { success := true }
  runProcess _ := { exitCode := 134, stderrText := stderrText }
  absolute path := some path

/-- The report inside the interrupted box is lost, and the run has verdict 0. -/
theorem interrupted_box_loses_report :
    ¬ NoReportLost interruptedBox ∧
      verdict (run (toolsPrinting interruptedBox) {}) true = kExitNoFindings := by
  constructor
  · intro h
    have hlines : linesOf interruptedBox =
        [lit "==ct== [WARN] [VTABLE]"] ++ lit "==ct== ct: leak ptr=1" :: [] := by decide
    have hreport : ReportLine (lit "==ct== ct: leak ptr=1") := by decide
    have hexamined :=
      (recognized_line_iff hlines hreport.2.1).mp (h.recognized _ _ _ hlines hreport)
    revert hexamined
    decide
  · have hbuilds : Builds (toolsPrinting interruptedBox) {} := by decide
    have hfindings : outputFindings (processOf (toolsPrinting interruptedBox) {}) = [] := by decide
    rw [verdict_of_launch hbuilds rfl, hfindings]
    rfl

end RuntimeAnalyzer
