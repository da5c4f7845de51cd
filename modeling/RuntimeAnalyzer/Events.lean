import RuntimeAnalyzer.Types

/-!
# Events and verdict

What the analyzer reads from a run: the CoreTrace event lines with their summary, colours
stripped, and the verdict it draws from a result.
-/

namespace RuntimeAnalyzer

/-! ## Event lines -/

/-- The line is the CoreTrace runtime's. -/
def isCoreTraceLine (line : Bytes) : Bool :=
  contains line (lit "==ct==") || contains line (lit "ct:") ||
    contains line (lit "[ENTRY-FUNCTION]") || contains line (lit "[EXIT-FUNCTION]") ||
    contains line (lit "[VTABLE-DIAG]") || contains line (lit "tracing-") ||
    contains line (lit "auto-free") || contains line (lit "heap-buffer-overflow") ||
    contains line (lit "heap-use-after-free")

/-- `if (test) ++counter` -/
def countIf (test : Bool) (counter : Nat) : Nat :=
  if test then counter + 1 else counter

/-- Counts an event line. -/
def updateSummary (line : Bytes) (summary : CollectionSummary) : CollectionSummary :=
  { summary with
    entryEvents :=
      countIf (contains line (lit "[ENTRY-FUNCTION]") || contains line (lit "ct: enter "))
        summary.entryEvents
    exitEvents := countIf (contains line (lit "[EXIT-FUNCTION]")) summary.exitEvents
    allocationEvents :=
      countIf (contains line (lit "tracing-") || contains line (lit "auto-free") ||
          contains line (lit "leaks detected") || contains line (lit "ct: leak "))
        summary.allocationEvents
    boundsErrors :=
      countIf (contains line (lit "heap-buffer-overflow") ||
          contains line (lit "heap-use-after-free"))
        summary.boundsErrors
    leakReports :=
      countIf (contains line (lit "leaks detected") || contains line (lit "ct: leak "))
        summary.leakReports
    vtableEvents := countIf (contains line (lit "[VTABLE-DIAG]")) summary.vtableEvents
    warnings :=
      countIf (contains line (lit "[WARN]") || contains line (lit " WARN ")) summary.warnings
    errors :=
      countIf (contains line (lit "[ERROR]") || contains line (lit " ERROR ")) summary.errors }

/-! ## Colours -/

/-- `'\x1b'` -/
abbrev escape : Byte := 27

/-- `'['` -/
abbrev bracket : Byte := 91

/-- `A` to `Z` or `a` to `z`. -/
def isLetter (byte : Byte) : Bool :=
  (65 ≤ byte && byte ≤ 90) || (97 ≤ byte && byte ≤ 122)

/-- The loop of `StripAnsi`. In a sequence everything up to the next letter is skipped, the letter
included. -/
def stripFrom (inSequence : Bool) : Bytes → Bytes
  | [] => []
  | byte :: rest =>
      if inSequence then stripFrom (!isLetter byte) rest
      -- The bracket is no letter, so the sequence skips it too.
      else if byte = escape ∧ rest.head? = some bracket then stripFrom true rest
      else byte :: stripFrom false rest

/-- A text without its ANSI escape sequences. -/
def stripAnsi (input : Bytes) : Bytes :=
  stripFrom false input

/-! ## Collection -/

/-- The loop of `CollectEvents`, over one line. -/
def collectLine (collected : CollectionSummary × List Bytes) (line : Bytes) :
    CollectionSummary × List Bytes :=
  if isCoreTraceLine line then
    (updateSummary line { collected.1 with coretraceLines := collected.1.coretraceLines + 1 },
      collected.2 ++ [line])
  else collected

/-- Appends the CoreTrace lines of a text, without their colours, to the events, and counts
them. -/
def collectEvents (text : Bytes) (events : List Bytes) : CollectionSummary × List Bytes :=
  (linesOf (stripAnsi text)).foldl collectLine ({}, events)

/-- The sum of two summaries, counter by counter. -/
def mergeSummaries (lhs rhs : CollectionSummary) : CollectionSummary where
  coretraceLines := lhs.coretraceLines + rhs.coretraceLines
  entryEvents := lhs.entryEvents + rhs.entryEvents
  exitEvents := lhs.exitEvents + rhs.exitEvents
  allocationEvents := lhs.allocationEvents + rhs.allocationEvents
  boundsErrors := lhs.boundsErrors + rhs.boundsErrors
  leakReports := lhs.leakReports + rhs.leakReports
  vtableEvents := lhs.vtableEvents + rhs.vtableEvents
  warnings := lhs.warnings + rhs.warnings
  errors := lhs.errors + rhs.errors

@[simp] theorem merge_summaries_empty (summary : CollectionSummary) :
    mergeSummaries summary {} = summary := rfl

theorem empty_merge_summaries (summary : CollectionSummary) :
    mergeSummaries {} summary = summary := by
  simp [mergeSummaries]

theorem merge_summaries_assoc (first second third : CollectionSummary) :
    mergeSummaries (mergeSummaries first second) third =
      mergeSummaries first (mergeSummaries second third) := by
  simp [mergeSummaries, Nat.add_assoc]

/-- The events appended are the CoreTrace lines, in order. -/
theorem collect_events_snd (text : Bytes) (events : List Bytes) :
    (collectEvents text events).2 =
      events ++ (linesOf (stripAnsi text)).filter isCoreTraceLine := by
  have hfold : ∀ (lines : List Bytes) (start : CollectionSummary × List Bytes),
      (lines.foldl collectLine start).2 = start.2 ++ lines.filter isCoreTraceLine := by
    intro lines
    induction lines with
    | nil => simp
    | cons line lines ih =>
        intro start
        rw [List.foldl_cons, ih, collectLine]
        by_cases hline : isCoreTraceLine line = true <;> simp [hline]
  exact hfold _ _

/-- The summary is that of the text, whatever events there are before. -/
theorem collect_events_fst (text : Bytes) (events : List Bytes) :
    (collectEvents text events).1 = (collectEvents text []).1 := by
  have hfold : ∀ (lines : List Bytes) (start other : CollectionSummary × List Bytes),
      start.1 = other.1 →
        (lines.foldl collectLine start).1 = (lines.foldl collectLine other).1 := by
    intro lines
    induction lines with
    | nil => exact fun _ _ h => h
    | cons line lines ih =>
        intro start other h
        refine ih _ _ ?_
        rw [collectLine, collectLine, h]
        split
        · rfl
        · exact h
  exact hfold _ _ _ rfl

/-- A counter that a test of the line alone moves. -/
structure CountsLines (counter : CollectionSummary → Nat) (test : Bytes → Bool) : Prop where
  start : counter {} = 0
  line : ∀ line summary lines,
    counter (updateSummary line { summary with coretraceLines := lines }) =
      countIf (test line) (counter summary)

/-- Such a counter is the number of the CoreTrace lines that pass the test. -/
theorem collect_events_counter {counter : CollectionSummary → Nat} {test : Bytes → Bool}
    (h : CountsLines counter test) (text : Bytes) (events : List Bytes) :
    counter (collectEvents text events).1 =
      (linesOf (stripAnsi text)).countP fun line => isCoreTraceLine line && test line := by
  have hfold : ∀ (lines : List Bytes) (start : CollectionSummary × List Bytes),
      counter (lines.foldl collectLine start).1 =
        counter start.1 + lines.countP fun line => isCoreTraceLine line && test line := by
    intro lines
    induction lines with
    | nil => simp
    | cons line lines ih =>
        intro start
        rw [List.foldl_cons, ih, collectLine, List.countP_cons]
        by_cases hcore : isCoreTraceLine line = true
        · rw [if_pos hcore, h.line]
          cases htest : test line <;> simp [countIf, hcore, Nat.add_assoc, Nat.add_comm]
        · simp [hcore]
  have hcount := hfold (linesOf (stripAnsi text)) ({}, events)
  rwa [h.start, Nat.zero_add] at hcount

/-! ## Verdict -/

/-- No finding. -/
def kExitNoFindings : Int := 0

/-- At least one finding. -/
def kExitFindings : Int := 1

/-- The program could not be built or run. -/
def kExitNotAnalyzed : Int := 2

/-- The analyzer's verdict; the program's own status stays in `exitCode`. -/
def verdict (result : AnalyzerResult) (runProgram : Bool) : Int :=
  if !result.compileSuccess || (runProgram && !result.executed) then kExitNotAnalyzed
  else if result.findings ≠ [] then kExitFindings
  -- A program killed at the timeout was not analyzed to completion.
  else if result.timedOut then kExitNotAnalyzed
  else kExitNoFindings

end RuntimeAnalyzer
