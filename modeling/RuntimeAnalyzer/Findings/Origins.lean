import RuntimeAnalyzer.Events
import RuntimeAnalyzer.Findings.BoxFinding
import RuntimeAnalyzer.Findings.Reports

/-!
# The line that starts a finding

`traceLines` runs the parser and keeps, beside each finding, the line that started it: the line
with the report heading, or the line that opened the box. `mem_origins_iff` says which lines of a
text these are, and `only_runtime_reports_iff` when all of them are event lines.
-/

namespace RuntimeAnalyzer

/-! ## The traced parser -/

/-- The parser with the lines its findings were started by. -/
structure Traced where
  state : ParserState := {}
  /-- The line that opened the box, while one is open. -/
  opener : Bytes := []
  /-- The line that started each finding. -/
  origins : List Bytes := []
  deriving DecidableEq, Repr

/-- The line that starts a finding pushed at this line. -/
def Traced.starter (traced : Traced) (line : Bytes) : Bytes :=
  if traced.state.box.isSome then traced.opener else line

/-- `parseLine`, with the line that started the finding it pushes. -/
def traceLine (traced : Traced) (line : Bytes) : Traced where
  state := parseLine traced.state line
  opener := traced.starter line
  origins :=
    if (parseLine traced.state line).findings.length = traced.state.findings.length then
      traced.origins
    else traced.origins ++ [traced.starter line]

/-- `parseLines`, with the lines that started its findings. -/
def traceLines (traced : Traced) (lines : List Bytes) : Traced :=
  lines.foldl traceLine traced

/-- The lines that started the findings of a text, one for each finding. -/
def origins (text : Bytes) : List Bytes :=
  (traceLines {} (linesOf text)).origins

/-- Tracing does not change what the parser does. -/
theorem trace_lines_state (traced : Traced) (lines : List Bytes) :
    (traceLines traced lines).state = parseLines traced.state lines := by
  induction lines generalizing traced with
  | nil => rfl
  | cons line lines ih => exact ih (traceLine traced line)

/-- A line pushes at most one finding. -/
theorem parse_line_length_le_succ (state : ParserState) (line : Bytes) :
    (parseLine state line).findings.length ≤ state.findings.length + 1 := by
  rcases parse_line_findings state line with ⟨pushed, h⟩ | h
  · cases pushed <;> simp [h]
  · rw [h, length_modify_last]
    omega

/-- There is one origin for each finding. -/
theorem trace_lines_length {traced : Traced}
    (h : traced.origins.length = traced.state.findings.length) (lines : List Bytes) :
    (traceLines traced lines).origins.length =
      (traceLines traced lines).state.findings.length := by
  induction lines generalizing traced with
  | nil => exact h
  | cons line lines ih =>
      refine ih ?_
      have hleast := parse_line_length_le traced.state line
      have hmost := parse_line_length_le_succ traced.state line
      unfold traceLine
      dsimp only
      split
      · omega
      · rw [List.length_append, List.length_singleton]
        omega

/-- There is one origin for each finding of a text. -/
theorem length_origins (text : Bytes) : (origins text).length = (parseFindings text).length := by
  rw [origins, trace_lines_length rfl, trace_lines_state]
  rfl

/-! ## Which lines start a finding -/

/-- The lines up to the one that closes the box leave it with a warning. -/
def closesWithWarning (box : DiagnosticBox) : List Bytes → Bool
  | [] => false
  | line :: rest =>
      if DiagnosticBox.closes line then box.warns else closesWithWarning (box.addRow line) rest

/-- A line starts a finding, given the parser's mode and the lines that follow: it holds a report
heading and is examined, or it opens a box whose rows warn. -/
def Starts (mode : Mode) (line : Bytes) (after : List Bytes) : Prop :=
  (Examined mode line ∧ ReportHeading line) ∨
    (mode ≠ .box ∧ DiagnosticBox.opens line = true ∧ closesWithWarning {} after = true)

/-- The occurrences of an element in a list with a first element: the first one and the rest. -/
theorem exists_append_cons_iff {α : Type} {x a : α} {l : List α} {P : List α → List α → Prop} :
    (∃ before after, a :: l = before ++ x :: after ∧ P before after) ↔
      (x = a ∧ P [] l) ∨ ∃ before after, l = before ++ x :: after ∧ P (a :: before) after := by
  constructor
  · intro h
    obtain ⟨before, after, hl, hP⟩ := h
    cases before with
    | nil =>
        cases hl
        exact .inl ⟨rfl, hP⟩
    | cons b before =>
        cases hl
        exact .inr ⟨before, after, rfl, hP⟩
  · intro h
    rcases h with ⟨rfl, hP⟩ | ⟨before, after, rfl, hP⟩
    · exact ⟨[], l, rfl, hP⟩
    · exact ⟨a :: before, after, rfl, hP⟩

/-- A line started a finding, or opened the box that is open and will report. -/
def Traced.Started (traced : Traced) (x : Bytes) (lines : List Bytes) : Prop :=
  x ∈ traced.origins ∨
    ∃ box, traced.state.box = some box ∧ x = traced.opener ∧ closesWithWarning box lines = true

/-- A line starts a finding as `Starts` says; the closing line of a box brings the finding that the
opening line started. -/
theorem started_trace_line (traced : Traced) (x line : Bytes) (lines : List Bytes) :
    (traceLine traced line).Started x lines ↔
      traced.Started x (line :: lines) ∨ (x = line ∧ Starts traced.state.mode line lines) := by
  have hmode := @mode_eq_box_iff traced.state
  have hexamined := @examined_mode_iff traced.state line
  unfold Traced.Started
  cases line_step traced.state line with
  | @closes box hbox hclose hnext =>
      cases hfinding : box.toFinding with
      | none =>
          have hwarns : box.warns = false := by
            simpa [hfinding] using (@DiagnosticBox.to_finding_isSome_iff box).not
          simp [traceLine, hnext, hbox, closesWithWarning, hclose, hfinding, hwarns, Starts, hmode,
            hexamined]
      | some finding =>
          have hwarns : box.warns = true :=
            DiagnosticBox.to_finding_isSome_iff.mp (by simp [hfinding])
          simp [traceLine, Traced.starter, hnext, hbox, closesWithWarning, hclose, hfinding, hwarns,
            Starts, hmode, hexamined]
  | row hbox hclose hnext =>
      simp [traceLine, Traced.starter, hnext, hbox, closesWithWarning, hclose, Starts, hmode,
        hexamined]
  | opens hbox hopen hnext =>
      simp [traceLine, Traced.starter, hnext, hbox, hopen, Starts, hmode, hexamined]
  -- The line goes on with a bounds report, so it is not examined.
  | continues hbox hopen hbounds hindent hnext =>
      simp [traceLine, hnext, hbox, hopen, hbounds, hindent, Starts, hexamined, length_modify_last]
  | examines hbox hopen hindent hnext =>
      rw [Starts, ← report_finding_isSome_iff, hexamined]
      cases hfinding : reportFinding line with
      | none => simp [traceLine, hnext, hbox, hopen, hfinding]
      | some finding => simp [traceLine, Traced.starter, hnext, hbox, hopen, hindent, hfinding]

/-- The origins of a traced run: the lines that started a finding before, and those of the run that
start one. -/
theorem mem_trace_lines_iff {traced : Traced} (hexclusive : traced.state.Exclusive)
    (lines : List Bytes) (x : Bytes) :
    x ∈ (traceLines traced lines).origins ↔
      traced.Started x lines ∨
        ∃ before after, lines = before ++ x :: after ∧
          Starts (before.foldl Mode.next traced.state.mode) x after := by
  induction lines generalizing traced with
  | nil => simp [traceLines, Traced.Started, closesWithWarning]
  | cons line lines ih =>
      have hrest := @ih (traceLine traced line) (parse_line_exclusive hexclusive line)
      rw [show (traceLine traced line).state.mode = traced.state.mode.next line from
        mode_parse_line hexclusive line] at hrest
      rw [show traceLines traced (line :: lines) =
          traceLines (traceLine traced line) lines from rfl,
        hrest, exists_append_cons_iff, started_trace_line, or_assoc]
      have hself : (x = line ∧ Starts traced.state.mode x lines) ↔
          x = line ∧ Starts traced.state.mode line lines :=
        and_congr_right fun heq => by rw [heq]
      simp only [List.foldl_cons, List.foldl_nil, hself]

/-- The lines that started the findings of a text are those that start a finding. -/
theorem mem_origins_iff {text x : Bytes} :
    x ∈ origins text ↔
      ∃ before after, linesOf text = before ++ x :: after ∧ Starts (modeAfter before) x after := by
  rw [origins, mem_trace_lines_iff (by simp [ParserState.Exclusive])]
  simp [Traced.Started, modeAfter, ParserState.mode]

/-! ## Lines that are not the runtime's -/

/-- A report heading on a line that is not the runtime's is the one of a double free: the others
hold `ct:`. -/
theorem heading_of_foreign {line : Bytes} (h : isCoreTraceLine line = false) :
    ReportHeading line ↔ lit "(double free)" <:+: line := by
  have hct : ∀ heading, lit "ct:" <:+: heading → ¬ heading <:+: line := by
    intro heading hpre hheading
    have hcontains : contains line (lit "ct:") = true :=
      contains_iff.mpr (hpre.trans hheading)
    simp [isCoreTraceLine, hcontains] at h
  have hbounds : ∀ error : BoundsError, ¬ lit "ct: " ++ error.rule ++ lit " " <:+: line := by
    intro error
    refine hct _ ?_
    rw [List.append_assoc]
    exact (List.infix_append' [] (lit "ct:") (lit " ")).trans (List.prefix_append _ _).isInfix
  have hleak : ¬ lit "ct: leak ptr=" <:+: line :=
    hct _ (List.infix_append' [] (lit "ct:") (lit " leak ptr="))
  unfold ReportHeading
  constructor
  · intro hheading
    rcases hheading with ⟨error, hbound⟩ | hfree | hleaks
    · exact absurd hbound (hbounds error)
    · exact hfree
    · exact absurd hleaks hleak
  · exact fun hfree => .inr (.inl hfree)

/-- The program's own output never becomes a finding: without event lines there is no finding,
and every finding was started by an event line. -/
structure OnlyRuntimeReports (text : Bytes) : Prop where
  silent : (∀ line ∈ linesOf (stripAnsi text), isCoreTraceLine line = false) →
    parseFindings (stripAnsi text) = []
  started : ∀ line ∈ origins (stripAnsi text), line ∈ (collectEvents text []).2

/-- A line of the program's own that the parser takes for a report: an examined line that says
`(double free)`, or a line that opens a box whose rows warn. -/
def TakenForReport (mode : Mode) (line : Bytes) (after : List Bytes) : Prop :=
  isCoreTraceLine line = false ∧
    ((Examined mode line ∧ lit "(double free)" <:+: line) ∨
      (mode ≠ .box ∧ DiagnosticBox.opens line = true ∧ closesWithWarning {} after = true))

/-- The program's own output never becomes a finding exactly when none of its lines is taken for a
report. -/
theorem only_runtime_reports_iff (text : Bytes) :
    OnlyRuntimeReports text ↔
      ∀ before line after, linesOf (stripAnsi text) = before ++ line :: after →
        ¬ TakenForReport (modeAfter before) line after := by
  have hevent : ∀ line, line ∈ (collectEvents text []).2 ↔
      line ∈ linesOf (stripAnsi text) ∧ isCoreTraceLine line = true := by
    intro line
    rw [collect_events_snd, List.nil_append, List.mem_filter]
  constructor
  · intro h before line after hlines htaken
    obtain ⟨hforeign, hstarts⟩ := htaken
    rw [← heading_of_foreign hforeign] at hstarts
    have hmem := h.started line (mem_origins_iff.mpr ⟨before, after, hlines, hstarts⟩)
    rw [((hevent line).mp hmem).2] at hforeign
    cases hforeign
  · intro h
    have hstarted : ∀ line ∈ origins (stripAnsi text), line ∈ (collectEvents text []).2 := by
      intro line hline
      obtain ⟨before, after, hlines, hstarts⟩ := mem_origins_iff.mp hline
      rw [hevent]
      refine ⟨by simp [hlines], ?_⟩
      by_contra hforeign
      rw [Bool.not_eq_true] at hforeign
      refine h before line after hlines ⟨hforeign, ?_⟩
      rwa [← heading_of_foreign hforeign]
    refine ⟨fun hforeign => ?_, hstarted⟩
    -- There are as many findings as origins.
    have hempty : origins (stripAnsi text) = [] := by
      refine List.eq_nil_iff_forall_not_mem.mpr fun line hline => ?_
      obtain ⟨hmem, hcore⟩ := (hevent line).mp (hstarted line hline)
      rw [hforeign line hmem] at hcore
      cases hcore
    have hlength := length_origins (stripAnsi text)
    rw [hempty] at hlength
    exact List.length_eq_zero_iff.mp hlength.symm

/-- A line of a program that tests for the error. -/
def ownOutput : Bytes :=
  lit "ok (double free)\n"

/-- The program's own line becomes a finding. -/
theorem own_output_becomes_finding :
    (∀ line ∈ linesOf (stripAnsi ownOutput), isCoreTraceLine line = false) ∧
      parseFindings (stripAnsi ownOutput) ≠ [] ∧ ¬ OnlyRuntimeReports ownOutput := by
  have hsilent : ∀ line ∈ linesOf (stripAnsi ownOutput), isCoreTraceLine line = false := by decide
  have hfound : parseFindings (stripAnsi ownOutput) ≠ [] := by decide
  exact ⟨hsilent, hfound, fun h => hfound (h.silent hsilent)⟩

end RuntimeAnalyzer
