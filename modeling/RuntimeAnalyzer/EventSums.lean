import Mathlib.Algebra.GroupWithZero.Nat
import RuntimeAnalyzer.BatchVerdict
import RuntimeAnalyzer.Colours
import RuntimeAnalyzer.Findings.Cut

/-!
# Adding up summaries

`CollectEvents` counts a text line by line, so the summary of a text that is cut where neither a
line nor a sequence is open is the sum of those of its parts, and the summary of a batch is the sum
of those of its tests, in whatever order and grouping they are added (`counts_add_up`).
-/

namespace RuntimeAnalyzer

/-! ## Counting over a part -/

theorem countIf_add (test : Bool) (first second : Nat) :
    countIf test (first + second) = first + countIf test second := by
  cases test
  · rfl
  · exact Nat.add_assoc _ _ _

/-- A line that follows other lines adds to their counters what it adds to none. -/
theorem update_summary_merge (line : Bytes) (before summary : CollectionSummary) :
    updateSummary line (mergeSummaries before summary) =
      mergeSummaries before (updateSummary line summary) := by
  simp only [updateSummary, mergeSummaries, countIf_add]

/-- What was collected before a text, and what is collected of the text. -/
def collectedAfter (before after : CollectionSummary × List Bytes) :
    CollectionSummary × List Bytes :=
  (mergeSummaries before.1 after.1, before.2 ++ after.2)

theorem collect_line_after (before after : CollectionSummary × List Bytes) (line : Bytes) :
    collectLine (collectedAfter before after) line =
      collectedAfter before (collectLine after line) := by
  unfold collectLine
  split
  · have hline := update_summary_merge line before.1
      { after.1 with coretraceLines := after.1.coretraceLines + 1 }
    exact Prod.ext hline (List.append_assoc _ _ _)
  · rfl

theorem collect_lines_after (before after : CollectionSummary × List Bytes) (lines : List Bytes) :
    lines.foldl collectLine (collectedAfter before after) =
      collectedAfter before (lines.foldl collectLine after) := by
  induction lines generalizing after with
  | nil => rfl
  | cons line lines ih => rw [List.foldl_cons, collect_line_after, ih, List.foldl_cons]

/-- A text is counted as on its own, after whatever events there are. -/
theorem collect_events_after (text : Bytes) (events : List Bytes) :
    collectEvents text events = collectedAfter ({}, events) (collectEvents text []) := by
  unfold collectEvents
  rw [← collect_lines_after, collectedAfter, merge_summaries_empty, List.append_nil]

/-! ## A text in two parts -/

/-- A text that ends its lines and leaves no sequence open is stripped to one that does. -/
theorem EndsLine.strip {text : Bytes} (h : EndsLine text) (hfinished : ¬ Unfinished text) :
    EndsLine (stripAnsi text) := by
  rcases h with rfl | hlast
  · exact .inl rfl
  · obtain ⟨before, rfl⟩ := List.getLast?_eq_some_iff.mp hlast
    -- The newline would be taken by a sequence that is open before it.
    have hbefore : ¬ Unfinished before := by
      rintro ⟨start, params, rfl, hparams⟩
      refine hfinished ⟨start, params ++ [newline], by simp, fun byte hbyte => ?_⟩
      rcases List.mem_append.mp hbyte with hbyte | hbyte
      · exact hparams byte hbyte
      · rw [List.mem_singleton.mp hbyte]
        decide
    have hcut : CutsApart before [newline] := fun _ => by decide
    refine .inr ?_
    rw [stripAnsi, strip_from_append hcut, inside_after_eq_false_iff.mpr hbefore]
    exact List.getLast?_concat ..

/-- Such a text does not reach into what follows it. -/
theorem EndsLine.strip_append {first : Bytes} (h : EndsLine first) (hfinished : ¬ Unfinished first)
    (second : Bytes) : stripAnsi (first ++ second) = stripAnsi first ++ stripAnsi second := by
  have hcut : CutsApart first second := by
    intro hescape
    rcases h with rfl | hlast
    · cases hescape
    · rw [hlast] at hescape
      cases hescape
  rw [stripAnsi, strip_from_append hcut, inside_after_eq_false_iff.mpr hfinished]
  rfl

theorem collect_events_append {first : Bytes} (h : EndsLine first) (hfinished : ¬ Unfinished first)
    (second : Bytes) (events : List Bytes) :
    collectEvents (first ++ second) events =
      collectedAfter (collectEvents first events) (collectEvents second []) := by
  have hrest := collect_lines_after (collectEvents first events) ({}, [])
    (linesOf (stripAnsi second))
  rw [collectedAfter, merge_summaries_empty, List.append_nil] at hrest
  have hlines : linesOf (stripAnsi (first ++ second)) =
      linesOf (stripAnsi first) ++ linesOf (stripAnsi second) := by
    rw [h.strip_append hfinished]
    exact ListSplit.lines_append _ (h.strip hfinished)
  rw [collectEvents, hlines, List.foldl_append]
  exact hrest

/-! ## The counters of a text -/

/-- The counters of a summary but the first. -/
def kindCounters : List (CollectionSummary → Nat) :=
  [(·.entryEvents), (·.exitEvents), (·.allocationEvents), (·.boundsErrors), (·.leakReports),
    (·.vtableEvents), (·.warnings), (·.errors)]

/-- A summary of some CoreTrace lines: no kind of line is counted more often than there are lines,
and a leak report is an allocation event. -/
structure SummarizesLines (summary : CollectionSummary) (count : Nat) : Prop where
  lines : summary.coretraceLines = count
  kinds : ∀ counter ∈ kindCounters, counter summary ≤ summary.coretraceLines
  leaks : summary.leakReports ≤ summary.allocationEvents

theorem countIf_le {test : Bool} {count bound : Nat} (h : count ≤ bound) :
    countIf test count ≤ bound + 1 := by
  cases test
  · exact Nat.le_succ_of_le h
  · exact Nat.succ_le_succ h

theorem countIf_mono {test other : Bool} {count bound : Nat} (himp : test = true → other = true)
    (h : count ≤ bound) : countIf test count ≤ countIf other bound := by
  cases test with
  | false => cases other <;> simp [countIf] <;> omega
  | true => simpa [countIf, himp rfl] using h

theorem SummarizesLines.step {summary : CollectionSummary} {count : Nat}
    (h : SummarizesLines summary count) (line : Bytes) :
    SummarizesLines
      (updateSummary line { summary with coretraceLines := summary.coretraceLines + 1 })
      (count + 1) := by
  have hkinds := h.kinds
  simp only [kindCounters, List.forall_mem_cons] at hkinds
  obtain ⟨hentry, hexit, hallocation, hbounds, hleak, hvtable, hwarning, herror, -⟩ := hkinds
  refine ⟨congrArg (· + 1) h.lines, ?_, ?_⟩
  · simp only [kindCounters, List.forall_mem_cons]
    exact ⟨countIf_le hentry, countIf_le hexit, countIf_le hallocation, countIf_le hbounds,
      countIf_le hleak, countIf_le hvtable, countIf_le hwarning, countIf_le herror, by simp⟩
  -- Both tests of a leak report are among those of an allocation event.
  · refine countIf_mono (fun hleaks => ?_) h.leaks
    rw [Bool.or_eq_true] at hleaks
    rcases hleaks with hleaks | hleaks <;> simp [hleaks]

/-- Whatever is collected is counted once, in the events and in the summary. -/
theorem summarizes_run {collected : CollectionSummary × List Bytes} {earlier : Nat}
    (h : ∃ count, SummarizesLines collected.1 count ∧ collected.2.length = earlier + count)
    (lines : List Bytes) :
    ∃ count, SummarizesLines (lines.foldl collectLine collected).1 count ∧
      (lines.foldl collectLine collected).2.length = earlier + count := by
  induction lines generalizing collected with
  | nil => exact h
  | cons line lines ih =>
      refine ih ?_
      unfold collectLine
      obtain ⟨count, hsummary, hlength⟩ := h
      split
      · refine ⟨count + 1, hsummary.step line, ?_⟩
        rw [List.length_append, hlength, List.length_singleton, Nat.add_assoc]
      · exact ⟨count, hsummary, hlength⟩

theorem collect_events_summarizes (text : Bytes) (events : List Bytes) :
    ∃ appended : List Bytes, (collectEvents text events).2 = events ++ appended ∧
      SummarizesLines (collectEvents text events).1 appended.length := by
  have hempty : SummarizesLines {} 0 := ⟨rfl, by simp [kindCounters], le_refl _⟩
  have hstart : ∃ count, SummarizesLines {} count ∧ events.length = events.length + count :=
    ⟨0, hempty, rfl⟩
  obtain ⟨count, hsummary, hlength⟩ :=
    @summarizes_run ({}, events) events.length hstart (linesOf (stripAnsi text))
  rw [← collectEvents, collect_events_snd, List.length_append] at hlength
  refine ⟨_, collect_events_snd text events, ?_⟩
  rw [Nat.add_left_cancel hlength]
  exact hsummary

/-! ## The summary of a batch -/

/-- The sum of some summaries, counter by counter. -/
def totalOf (summaries : List CollectionSummary) : CollectionSummary where
  coretraceLines := (summaries.map (·.coretraceLines)).sum
  entryEvents := (summaries.map (·.entryEvents)).sum
  exitEvents := (summaries.map (·.exitEvents)).sum
  allocationEvents := (summaries.map (·.allocationEvents)).sum
  boundsErrors := (summaries.map (·.boundsErrors)).sum
  leakReports := (summaries.map (·.leakReports)).sum
  vtableEvents := (summaries.map (·.vtableEvents)).sum
  warnings := (summaries.map (·.warnings)).sum
  errors := (summaries.map (·.errors)).sum

/-- A way of merging some summaries two by two, and what comes of it. -/
inductive MergesTo : List CollectionSummary → CollectionSummary → Prop
  | none : MergesTo [] {}
  | one (summary : CollectionSummary) : MergesTo [summary] summary
  | both {first second : List CollectionSummary} {left right : CollectionSummary} :
      MergesTo first left → MergesTo second right →
      MergesTo (first ++ second) (mergeSummaries left right)

theorem total_of_append (first second : List CollectionSummary) :
    totalOf (first ++ second) = mergeSummaries (totalOf first) (totalOf second) := by
  simp only [totalOf, mergeSummaries, List.map_append, List.sum_append_nat]

theorem total_of_singleton (summary : CollectionSummary) : totalOf [summary] = summary := by
  simp [totalOf]

theorem total_of_perm {summaries order : List CollectionSummary} (h : order.Perm summaries) :
    totalOf order = totalOf summaries := by
  simp only [totalOf, (h.map _).sum_nat]

/-- However the summaries are grouped, their sum comes of it. -/
theorem MergesTo.eq_total {summaries : List CollectionSummary} {total : CollectionSummary}
    (h : MergesTo summaries total) : total = totalOf summaries := by
  induction h with
  | none => rfl
  | one summary => exact (total_of_singleton summary).symm
  | both _ _ hleft hright => rw [total_of_append, hleft, hright]

/-- The summaries of the tests of a batch. -/
def testSummaries (batch : BatchResult) : List CollectionSummary :=
  batch.tests.map (·.analyzerResult.summary)

/-- The loop over the sources adds up their summaries. -/
theorem test_sources_total (tools : BatchTools) (options : AnalyzerOptions)
    {state : BatchResult × Int} (h : state.1.summary = totalOf (testSummaries state.1))
    (sources : List Bytes) :
    (sources.foldl (testSource tools options) state).1.summary =
      totalOf (testSummaries (sources.foldl (testSource tools options) state).1) := by
  induction sources generalizing state with
  | nil => exact h
  | cons source sources ih =>
      refine ih ?_
      have htests : testSummaries (testSource tools options state source).1 =
          testSummaries state.1 ++ [(runTest tools options source).summary] := by
        simp [testSummaries, testSource, BatchResult.record]
      rw [htests, total_of_append, total_of_singleton, ← h]
      rfl

theorem run_batch_total (tools : BatchTools) (options : AnalyzerOptions) :
    (runBatch tools options).summary = totalOf (testSummaries (runBatch tools options)) := by
  by_cases hreached : Reached tools options
  · rw [run_batch_of_reached hreached]
    exact @test_sources_total tools options
      ({ diagnostics := (discoverSourceFiles tools options.testDirectories).2 }, kExitNoFindings)
      rfl _
  · obtain ⟨_, _, hdefaults⟩ := run_batch_of_not_reached hreached
    rw [hdefaults]
    rfl

/-! ## Counting adds up -/

/-- What the summary of a batch says about its tests. -/
structure AddsTests (batch : BatchResult) : Prop where
  total : batch.summary = totalOf (testSummaries batch)
  /-- The order and the grouping of the tests make no difference. -/
  merged : ∀ order total, order.Perm (testSummaries batch) → MergesTo order total →
    batch.summary = total

/-- A text that ends its lines and its sequences is counted apart from what follows it; every text
is counted line by line, and a batch test by test. -/
theorem counts_add_up {first : Bytes} (hline : EndsLine first) (hfinished : ¬ Unfinished first)
    (second : Bytes) (events : List Bytes) (tools : BatchTools) (options : AnalyzerOptions) :
    collectEvents (first ++ second) events =
        (mergeSummaries (collectEvents first []).1 (collectEvents second []).1,
          events ++ (collectEvents first []).2 ++ (collectEvents second []).2) ∧
      (∀ text before, ∃ appended : List Bytes,
        (collectEvents text before).2 = before ++ appended ∧
          SummarizesLines (collectEvents text before).1 appended.length) ∧
      AddsTests (runBatch tools options) := by
  have htotal := run_batch_total tools options
  refine ⟨?_, collect_events_summarizes, htotal, fun order total hperm hmerges => ?_⟩
  · rw [collect_events_append hline hfinished, collect_events_after first events]
    simp only [collectedAfter, empty_merge_summaries]
  · rw [hmerges.eq_total, total_of_perm hperm, htotal]

/-- A leak that is reported in colour before an entry. -/
theorem counts_add_up_two_lines :
    collectEvents (lit "\x1b[31mct: leak ptr=1\x1b[0m\n" ++ lit "ct: enter main") [] =
      ({ coretraceLines := 2, entryEvents := 1, allocationEvents := 1, leakReports := 1 },
        [lit "ct: leak ptr=1", lit "ct: enter main"]) := by
  have hline : EndsLine (lit "\x1b[31mct: leak ptr=1\x1b[0m\n") := .inr (by decide)
  have hfinished : ¬ Unfinished (lit "\x1b[31mct: leak ptr=1\x1b[0m\n") :=
    inside_after_eq_false_iff.mp (by decide)
  refine (counts_add_up hline hfinished (lit "ct: enter main") [] oneSource {}).1.trans ?_
  decide +kernel

end RuntimeAnalyzer
