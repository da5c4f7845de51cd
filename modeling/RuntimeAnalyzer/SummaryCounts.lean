import Mathlib.Algebra.BigOperators.Group.List.Basic
import Mathlib.Algebra.GroupWithZero.Nat
import Mathlib.Algebra.Order.BigOperators.Group.List
import Mathlib.Algebra.Order.Group.Nat
import RuntimeAnalyzer.Batch
import RuntimeAnalyzer.Findings.Counts
import RuntimeAnalyzer.RunReports

/-!
# The event summary and the findings

The counters and the findings come from two passes over the same text. `summary_covers_iff` and
`vtable_events_iff` say when the counters are no less than the numbers of findings they are about,
of one text, of a run and of a batch.
-/

namespace RuntimeAnalyzer

/-! ## What the counters count -/

/-- The line counts as a bounds error. -/
def isBoundsError (line : Bytes) : Bool :=
  contains line (lit "heap-buffer-overflow") || contains line (lit "heap-use-after-free")

/-- The line counts as a leak report. -/
def isLeakReport (line : Bytes) : Bool :=
  contains line (lit "leaks detected") || contains line (lit "ct: leak ")

/-- The line counts as a vtable event. -/
def isVtableEvent (line : Bytes) : Bool :=
  contains line (lit "[VTABLE-DIAG]")

/-- Every bounds error is a CoreTrace line, so the counter counts all of them. -/
theorem collect_events_bounds_errors (text : Bytes) (events : List Bytes) :
    (collectEvents text events).1.boundsErrors =
      (linesOf (stripAnsi text)).countP isBoundsError := by
  rw [collect_events_counter (⟨rfl, fun _ _ _ => rfl⟩ : CountsLines (·.boundsErrors) isBoundsError)]
  refine List.countP_congr fun line _ => ?_
  rw [Bool.and_eq_true, and_iff_right_iff_imp]
  intro hline
  rw [isBoundsError, Bool.or_eq_true] at hline
  rcases hline with h | h <;> simp [isCoreTraceLine, h]

/-- Every vtable event is a CoreTrace line. -/
theorem collect_events_vtable_events (text : Bytes) (events : List Bytes) :
    (collectEvents text events).1.vtableEvents =
      (linesOf (stripAnsi text)).countP isVtableEvent := by
  rw [collect_events_counter (⟨rfl, fun _ _ _ => rfl⟩ : CountsLines (·.vtableEvents) isVtableEvent)]
  refine List.countP_congr fun line _ => ?_
  rw [Bool.and_eq_true, and_iff_right_iff_imp]
  intro hline
  rw [isVtableEvent] at hline
  simp [isCoreTraceLine, hline]

theorem collect_events_leak_reports (text : Bytes) (events : List Bytes) :
    (collectEvents text events).1.leakReports =
      (linesOf (stripAnsi text)).countP fun line => isCoreTraceLine line && isLeakReport line :=
  collect_events_counter ⟨rfl, fun _ _ _ => rfl⟩ text events

/-! ## What the findings are counted by -/

/-- The rule is one of the bounds reports. -/
def isBoundsRule (rule : Bytes) : Bool :=
  kBoundsRules.any (·.rule = rule)

def isLeakRule (rule : Bytes) : Bool :=
  rule = lit "memory-leak"

/-- The examined lines with a finding of these rules are those with the heading of a bounds
report. -/
theorem reports_bounds_rule (mode : Mode) (line : Bytes) :
    reportsKind isBoundsRule mode line = (Examined mode line && (boundsFinding line).isSome) := by
  have hother : isBoundsRule (lit "double-free") = false ∧
      isBoundsRule (lit "memory-leak") = false := by decide
  have hkinds : (reportFinding line).any (isBoundsRule ·.rule) = (boundsFinding line).isSome := by
    rw [reportFinding]
    cases hbounds : boundsFinding line with
    | some finding =>
        cases bounds_report hbounds with
        | found known => simpa [isBoundsRule] using ⟨_, known, rfl⟩
    | none =>
        cases honeLine : oneLineReport line with
        | none => rfl
        | some finding => cases one_line_report honeLine <;> simp [oneLineFinding, hother]
  rw [reportsKind, hkinds]

/-- A line with a leak finding counts as a leak report. -/
theorem leak_report_of_reports {mode : Mode} {line : Bytes}
    (h : reportsKind isLeakRule mode line = true) :
    (isCoreTraceLine line && isLeakReport line) = true := by
  have hbounds : ∀ bounds ∈ kBoundsRules, isLeakRule bounds.rule = false := by decide
  have hfree : isLeakRule (lit "double-free") = false := by decide
  rw [reportsKind, Bool.and_eq_true, Option.any_eq_true] at h
  obtain ⟨_, finding, hfinding, hrule⟩ := h
  rw [reportFinding, Option.or_eq_some_iff] at hfinding
  rcases hfinding with h | ⟨_, h⟩
  · cases bounds_report h with
    | found known => simp [hbounds _ known] at hrule
  · cases one_line_report h with
    | doubleFree => simp [oneLineFinding, hfree] at hrule
    | leak heading =>
        rw [contains_iff] at heading
        have hct : contains line (lit "ct:") = true :=
          contains_iff.mpr ((List.infix_append' [] (lit "ct:") (lit " leak ptr=")).trans heading)
        have hleak : contains line (lit "ct: leak ") = true :=
          contains_iff.mpr ((List.infix_append' [] (lit "ct: leak ") (lit "ptr=")).trans heading)
        simp [isCoreTraceLine, isLeakReport, hct, hleak]

/-! ## The texts that are read -/

/-- The merged summary of some texts. -/
def summaryOf (texts : List Bytes) : CollectionSummary :=
  texts.foldr (fun text rest => mergeSummaries (collectEvents text []).1 rest) {}

/-- The findings of some texts, in order. -/
def findingsOf (texts : List Bytes) : List Finding :=
  texts.flatMap fun text => parseFindings (stripAnsi text)

theorem summary_of_append (first second : List Bytes) :
    summaryOf (first ++ second) = mergeSummaries (summaryOf first) (summaryOf second) := by
  induction first with
  | nil => exact (empty_merge_summaries _).symm
  | cons text first ih =>
      rw [List.cons_append, summaryOf, List.foldr_cons, ← summaryOf, ih, ← merge_summaries_assoc]
      rfl

/-- What a run reads: the two outputs of a program that was executed. -/
def textsRead (tools : Tools) (options : AnalyzerOptions) : List Bytes :=
  if Builds tools options ∧ options.runProgram = true ∧ (processOf tools options).error = [] then
    [(processOf tools options).stdoutText, (processOf tools options).stderrText]
  else []

/-- What a batch reads: the outputs of the programs of its sources. -/
def batchTexts (tools : BatchTools) (options : AnalyzerOptions) : List Bytes :=
  if Reached tools options then
    (discoverSourceFiles tools options.testDirectories).1.flatMap fun source =>
      textsRead (tools.toolsFor source) (testOptions tools options source)
  else []

/-- The summary and the findings of a run are those of what it reads. -/
theorem run_reads (tools : Tools) (options : AnalyzerOptions) :
    (run tools options).summary = summaryOf (textsRead tools options) ∧
      (run tools options).findings = findingsOf (textsRead tools options) := by
  unfold textsRead
  by_cases hbuilds : Builds tools options
  · cases hrun : options.runProgram with
    | false =>
        rw [run_of_compile_only hbuilds hrun, if_neg (by simp)]
        exact ⟨rfl, rfl⟩
    | true =>
        rw [run_of_launch hbuilds hrun]
        by_cases herror : (processOf tools options).error = []
        · rw [if_pos ⟨hbuilds, rfl, herror⟩, finish_run_findings, if_pos herror]
          refine ⟨?_, by simp [findingsOf, outputFindings]⟩
          simp [finishRun, receiveProcess, collectOutput, herror, summaryOf]
        · rw [if_neg fun h => herror h.2.2, finish_run_findings, if_neg herror]
          refine ⟨?_, rfl⟩
          simp [finishRun, receiveProcess, herror, compiledResult, summaryOf]
  · obtain ⟨_, _, hdefaults⟩ := run_of_not_builds hbuilds
    rw [hdefaults, if_neg fun h => hbuilds h.1]
    exact ⟨rfl, rfl⟩

/-- A test of a batch reads what its run reads. -/
theorem run_test_reads (tools : BatchTools) (options : AnalyzerOptions) (source : Bytes) :
    (runTest tools options source).summary =
        summaryOf (textsRead (tools.toolsFor source) (testOptions tools options source)) ∧
      (runTest tools options source).findings =
        findingsOf (textsRead (tools.toolsFor source) (testOptions tools options source)) :=
  run_reads (tools.toolsFor source) (testOptions tools options source)

/-- The loop over the sources adds what their tests read. -/
theorem test_sources_read (tools : BatchTools) (options : AnalyzerOptions)
    (state : BatchResult × Int) (sources : List Bytes) :
    let texts := sources.flatMap fun source =>
      textsRead (tools.toolsFor source) (testOptions tools options source)
    (sources.foldl (testSource tools options) state).1.summary =
        mergeSummaries state.1.summary (summaryOf texts) ∧
      allFindings (sources.foldl (testSource tools options) state).1 =
        allFindings state.1 ++ findingsOf texts := by
  induction sources generalizing state with
  | nil => exact ⟨rfl, (List.append_nil _).symm⟩
  | cons source sources ih =>
      obtain ⟨hsummary, hfindings⟩ := ih (testSource tools options state source)
      obtain ⟨hone, honeFindings⟩ := run_test_reads tools options source
      dsimp only at hsummary hfindings ⊢
      rw [List.foldl_cons, hsummary, hfindings, List.flatMap_cons, summary_of_append, ← hone,
        ← merge_summaries_assoc]
      refine ⟨rfl, ?_⟩
      rw [findingsOf, findingsOf, List.flatMap_append, ← List.append_assoc]
      congr 1
      rw [← findingsOf, ← honeFindings]
      simp [allFindings, testSource, BatchResult.record]

/-- The summary and the findings of a batch are those of what it reads. -/
theorem batch_reads (tools : BatchTools) (options : AnalyzerOptions) :
    (runBatch tools options).summary = summaryOf (batchTexts tools options) ∧
      allFindings (runBatch tools options) = findingsOf (batchTexts tools options) := by
  unfold batchTexts
  by_cases hreached : Reached tools options
  · rw [if_pos hreached, run_batch_of_reached hreached]
    have hread := test_sources_read tools options
      ({ diagnostics := (discoverSourceFiles tools options.testDirectories).2 }, kExitNoFindings)
      (discoverSourceFiles tools options.testDirectories).1
    dsimp only at hread
    rw [empty_merge_summaries] at hread
    exact hread
  · obtain ⟨_, _, hdefaults⟩ := run_batch_of_not_reached hreached
    rw [if_neg hreached, hdefaults]
    exact ⟨rfl, rfl⟩

/-! ## Sums over texts -/

variable {texts : List Bytes}

/-- A counter that adds up is the sum over the texts. -/
theorem summary_of_counter {counter : CollectionSummary → Nat} (hempty : counter {} = 0)
    (hmerge : ∀ lhs rhs, counter (mergeSummaries lhs rhs) = counter lhs + counter rhs) :
    counter (summaryOf texts) = (texts.map fun text => counter (collectEvents text []).1).sum := by
  induction texts with
  | nil => exact hempty
  | cons text texts ih =>
      rw [summaryOf, List.foldr_cons, hmerge, ← summaryOf, ih]
      rfl

theorem count_rules_findings_of (kind : Bytes → Bool) :
    countRules kind (findingsOf texts) =
      (texts.map fun text => countRules kind (parseFindings (stripAnsi text))).sum := by
  induction texts with
  | nil => rfl
  | cons text texts ih =>
      rw [findingsOf, List.flatMap_cons, count_rules_append, ← findingsOf, ih]
      rfl

/-! ## Bounds errors and leaks -/

/-- There are no more bounds and leak findings than the counters say. -/
structure Covers (summary : CollectionSummary) (findings : List Finding) : Prop where
  bounds : countRules isBoundsRule findings ≤ summary.boundsErrors
  leaks : countRules isLeakRule findings ≤ summary.leakReports

/-- The line starts a report of a stack overflow that no counter sees. -/
def isUncounted (mode : Mode) (line : Bytes) (_ : List Bytes) : Bool :=
  Examined mode line && contains line (lit "ct: stack-buffer-overflow ") && !isBoundsError line

/-- The line is counted and starts no bounds report. -/
def isSpare (mode : Mode) (line : Bytes) (_ : List Bytes) : Bool :=
  isBoundsError line && !(Examined mode line && (boundsFinding line).isSome)

/-- The counted lines that start no report make up for the reports that are not counted. -/
def Compensated (texts : List Bytes) : Prop :=
  (texts.map fun text => countInText isUncounted (stripAnsi text)).sum ≤
    (texts.map fun text => countInText isSpare (stripAnsi text)).sum

/-- A report that is not counted is one of a stack overflow. -/
theorem uncounted_iff (mode : Mode) (line : Bytes) (after : List Bytes) :
    (reportsKind isBoundsRule mode line && !isBoundsError line) = isUncounted mode line after := by
  have hstack : lit "ct: stack-buffer-overflow " =
      lit "ct: " ++ lit "stack-buffer-overflow" ++ lit " " := by decide
  rw [reports_bounds_rule, isUncounted]
  cases hcounted : isBoundsError line with
  | true => simp
  | false =>
      have hsome : (boundsFinding line).isSome =
          contains line (lit "ct: stack-buffer-overflow ") := by
        rw [Bool.eq_iff_iff, bounds_finding_isSome_iff, contains_iff, hstack]
        constructor
        · intro h
          obtain ⟨error, hheading⟩ := h
          have hword : error.rule <:+: line := by
            rw [List.append_assoc] at hheading
            exact (List.infix_append' (lit "ct: ") error.rule (lit " ")).trans hheading
          -- The heading of the other two errors holds a word that is counted.
          cases error with
          | stackBufferOverflow => exact hheading
          | heapBufferOverflow | heapUseAfterFree =>
              rw [BoundsError.rule, ← contains_iff] at hword
              simp [isBoundsError, hword] at hcounted
        · exact fun h => ⟨.stackBufferOverflow, h⟩
      rw [hsome]

/-- The bounds findings of a text and its counted lines, each with what the other lacks. -/
theorem bounds_balance (text : Bytes) :
    countRules isBoundsRule (parseFindings (stripAnsi text)) +
        countInText isSpare (stripAnsi text) =
      countInText isUncounted (stripAnsi text) + (collectEvents text []).1.boundsErrors := by
  have hrules : ∀ rule, isBoundsRule rule = true → rule ∈ lineRules := by
    intro rule hrule
    rw [isBoundsRule, List.any_eq_true] at hrule
    obtain ⟨bounds, known, hsame⟩ := hrule
    rw [decide_eq_true_eq] at hsame
    exact List.mem_append_left _ (List.mem_map.mpr ⟨bounds, known, hsame⟩)
  have hexchange := @count_lines_exchange (fun mode line _ => reportsKind isBoundsRule mode line)
    (fun _ line _ => isBoundsError line) .idle (linesOf (stripAnsi text))
  simp only [uncounted_iff _ _ [], count_lines_of_line] at hexchange
  rw [count_line_findings_of_text hrules, collect_events_bounds_errors]
  simp only [reports_bounds_rule] at hexchange ⊢
  exact hexchange

/-- Every leak finding is counted. -/
theorem leaks_le (text : Bytes) :
    countRules isLeakRule (parseFindings (stripAnsi text)) ≤
      (collectEvents text []).1.leakReports := by
  have hrules : ∀ rule, isLeakRule rule = true → rule ∈ lineRules := by
    intro rule hrule
    rw [isLeakRule, decide_eq_true_eq] at hrule
    simp [hrule, lineRules]
  have hle := @count_lines_mono (fun mode line _ => reportsKind isLeakRule mode line)
    (fun _ line _ => isCoreTraceLine line && isLeakReport line)
    (fun _ _ _ h => leak_report_of_reports h) .idle (linesOf (stripAnsi text))
  rw [count_lines_of_line] at hle
  rw [collect_events_leak_reports, count_line_findings_of_text hrules]
  exact hle

/-- The summary of some texts covers their findings exactly when they are compensated. -/
theorem covers_iff (texts : List Bytes) :
    Covers (summaryOf texts) (findingsOf texts) ↔ Compensated texts := by
  have hbalance : countRules isBoundsRule (findingsOf texts) +
        (texts.map fun text => countInText isSpare (stripAnsi text)).sum =
      (texts.map fun text => countInText isUncounted (stripAnsi text)).sum +
        (summaryOf texts).boundsErrors := by
    rw [count_rules_findings_of, @summary_of_counter texts (·.boundsErrors) rfl fun _ _ => rfl,
      ← List.sum_map_add, ← List.sum_map_add]
    simp only [bounds_balance]
  have hleaks : countRules isLeakRule (findingsOf texts) ≤ (summaryOf texts).leakReports := by
    rw [count_rules_findings_of, @summary_of_counter texts (·.leakReports) rfl fun _ _ => rfl]
    exact List.sum_le_sum fun text _ => leaks_le text
  unfold Compensated
  constructor
  · intro h
    have hbounds := h.bounds
    omega
  · intro h
    exact ⟨by omega, hleaks⟩

/-- The event summary covers the findings, of a text, of a run and of a batch, exactly when what
is read is compensated. -/
theorem summary_covers_iff (text : Bytes) (events : List Bytes) (tools : Tools)
    (batchTools : BatchTools) (options : AnalyzerOptions) :
    (Covers (collectEvents text events).1 (parseFindings (stripAnsi text)) ↔
        Compensated [text]) ∧
      (Covers (run tools options).summary (run tools options).findings ↔
        Compensated (textsRead tools options)) ∧
      (Covers (runBatch batchTools options).summary (allFindings (runBatch batchTools options)) ↔
        Compensated (batchTexts batchTools options)) := by
  refine ⟨?_, ?_, ?_⟩
  · rw [collect_events_fst, ← covers_iff]
    simp [summaryOf, findingsOf]
  · rw [(run_reads tools options).1, (run_reads tools options).2, covers_iff]
  · rw [(batch_reads batchTools options).1, (batch_reads batchTools options).2, covers_iff]

/-- The report of a stack overflow. -/
def stackOverflow : Bytes :=
  lit "|1| ==ct== [ERROR] ct: stack-buffer-overflow WRITE of size 4\n"

/-- The finding stands next to `bounds_errors=0`. -/
theorem stack_overflow_not_counted :
    (collectEvents stackOverflow []).1.boundsErrors = 0 ∧
      (parseFindings (stripAnsi stackOverflow)).map (·.rule) = [lit "stack-buffer-overflow"] ∧
      ¬ Covers (collectEvents stackOverflow []).1 (parseFindings (stripAnsi stackOverflow)) := by
  refine ⟨by decide, by decide, fun h => ?_⟩
  have hbounds := h.bounds
  revert hbounds
  decide

/-! ## Vtable events -/

/-- There are no more reported boxes than lines that count as vtable events. -/
def BoxesCounted (texts : List Bytes) : Prop :=
  (texts.map fun text => countInText opensReportedBox (stripAnsi text)).sum ≤
    (texts.map fun text => (linesOf (stripAnsi text)).countP isVtableEvent).sum

/-- The vtable findings of a text are counted by the lines that open a reported box. -/
theorem vtable_findings_eq (text : Bytes) :
    countRules isVtableRule (parseFindings text) = countInText opensReportedBox text := by
  have hentries : ∀ entry ∈ DiagnosticBox.otherWarning :: kVtableRules,
      isVtableRule entry.rule = true := by decide
  have hbox : ∀ {box : DiagnosticBox} {finding : Finding}, box.toFinding = some finding →
      isVtableRule finding.rule = true := by
    intro box finding h
    obtain ⟨entry, hentry, hnames⟩ := DiagnosticBox.to_finding_entry h
    rw [hnames.rule]
    exact hentries entry hentry
  exact count_box_findings_of_text hbox (by decide) text

theorem boxes_counted_iff (texts : List Bytes) :
    countRules isVtableRule (findingsOf texts) ≤ (summaryOf texts).vtableEvents ↔
      BoxesCounted texts := by
  rw [count_rules_findings_of, @summary_of_counter texts (·.vtableEvents) rfl fun _ _ => rfl,
    BoxesCounted]
  simp only [vtable_findings_eq, collect_events_vtable_events]

/-- The vtable findings are counted in the summary, of a text and of a run, exactly when there are
no more reported boxes than lines that count. -/
theorem vtable_events_iff (text : Bytes) (events : List Bytes) (tools : Tools)
    (options : AnalyzerOptions) :
    (countRules isVtableRule (parseFindings (stripAnsi text)) ≤
        (collectEvents text events).1.vtableEvents ↔ BoxesCounted [text]) ∧
      (countRules isVtableRule (run tools options).findings ≤
        (run tools options).summary.vtableEvents ↔ BoxesCounted (textsRead tools options)) := by
  constructor
  · rw [collect_events_fst, ← boxes_counted_iff]
    simp [summaryOf, findingsOf]
  · rw [(run_reads tools options).1, (run_reads tools options).2, boxes_counted_iff]

/-- A virtual call through a null pointer, as the runtime reports it. -/
def nullThis : Bytes :=
  lit "|1| ==ct== [WARN] [VTABLE]\n" ++ lit "|1| ==ct== [WARN] │ warn : null this pointer │\n" ++
    lit "|1| ==ct== [WARN] └─┘\n"

/-- The finding stands next to `vtable_events=0`. -/
theorem null_this_not_counted :
    (collectEvents nullThis []).1.vtableEvents = 0 ∧
      (parseFindings (stripAnsi nullThis)).map (·.rule) = [lit "vtable-null-this"] ∧
      ¬ countRules isVtableRule (parseFindings (stripAnsi nullThis)) ≤
        (collectEvents nullThis []).1.vtableEvents := by
  decide

end RuntimeAnalyzer
