import RuntimeAnalyzer.Findings.Parser

/-!
# Where the parser looks for reports

The two pieces of state the parser carries between lines decide which lines it examines for a
report. `Mode` is that part of the state alone, and `mode_parse_lines` says that the parser's
state follows it. `LineStep` lists what a line can be to the parser; every invariant of the loop is
a case analysis over it.
-/

namespace RuntimeAnalyzer

/-! ## Modes -/

/-- What the parser does with the next line: examine it, offer it to the bounds report it is in,
or give it to the open box. -/
inductive Mode
  | idle
  | bounds
  | box
  deriving DecidableEq, Repr

/-- The mode after a line. -/
def Mode.next (mode : Mode) (line : Bytes) : Mode :=
  match mode with
  | .box => if DiagnosticBox.closes line then .idle else .box
  | _ =>
      if DiagnosticBox.opens line then .box
      else if mode = .bounds ∧ startsWith line (lit "  ") then .bounds
      else if (boundsFinding line).isSome then .bounds
      else .idle

/-- The mode after some lines of an output. -/
def modeAfter (lines : List Bytes) : Mode :=
  lines.foldl Mode.next .idle

namespace ParserState

/-- The mode of a parser state. -/
def mode (state : ParserState) : Mode :=
  if state.box.isSome then .box else if state.inBoundsReport then .bounds else .idle

/-- While a box is open the parser is in no bounds report. -/
def Exclusive (state : ParserState) : Prop :=
  state.box.isSome → state.inBoundsReport = false

end ParserState

/-- The modes of a state, variable by variable. -/
theorem mode_eq_bounds_iff {state : ParserState} (h : state.Exclusive) :
    state.mode = .bounds ↔ state.inBoundsReport = true := by
  cases hbox : state.box with
  | none => cases hbounds : state.inBoundsReport <;> simp [ParserState.mode, hbox, hbounds]
  | some box =>
      have hbounds := h (by simp [hbox])
      simp [ParserState.mode, hbox, hbounds]

theorem mode_eq_box_iff {state : ParserState} : state.mode = .box ↔ state.box ≠ none := by
  cases hbox : state.box <;> cases hbounds : state.inBoundsReport <;>
    simp [ParserState.mode, hbox, hbounds]

/-! ## One line of the parser -/

/-- A line that closes the open box pushes the box's finding, if it has one. -/
theorem parse_line_close {state : ParserState} {line : Bytes} {box : DiagnosticBox}
    (hbox : state.box = some box) (hclose : DiagnosticBox.closes line = true) :
    parseLine state line =
      { state with findings := state.findings ++ box.toFinding.toList, box := none } := by
  simp [parseLine, hbox, hclose]

/-- Any other line of an open box is a row. -/
theorem parse_line_row {state : ParserState} {line : Bytes} {box : DiagnosticBox}
    (hbox : state.box = some box) (hclose : DiagnosticBox.closes line = false) :
    parseLine state line = { state with box := some (box.addRow line) } := by
  simp [parseLine, hbox, hclose]

/-- A line that opens a box pushes nothing. -/
theorem parse_line_open {state : ParserState} {line : Bytes} (hbox : state.box = none)
    (hopen : DiagnosticBox.opens line = true) :
    parseLine state line = { state with inBoundsReport := false, box := some {} } := by
  simp [parseLine, hbox, hopen]

/-- An indented line of a bounds report updates the last finding. -/
theorem parse_line_continue {state : ParserState} {line : Bytes} (hbox : state.box = none)
    (hopen : DiagnosticBox.opens line = false) (hbounds : state.inBoundsReport = true)
    (hindent : startsWith line (lit "  ") = true) :
    parseLine state line =
      { state with findings := state.findings.modifyLast (continueReport line) } := by
  simp [parseLine, hbox, hopen, hbounds, hindent]

/-- Every other line is examined for a report. -/
theorem parse_line_examine {state : ParserState} {line : Bytes} (hbox : state.box = none)
    (hopen : DiagnosticBox.opens line = false)
    (hindent : (state.inBoundsReport && startsWith line (lit "  ")) = false) :
    parseLine state line =
      { state with
        findings := state.findings ++ (reportFinding line).toList
        inBoundsReport := (boundsFinding line).isSome } := by
  unfold parseLine reportFinding
  cases hfind : boundsFinding line <;> simp [hbox, hopen, hindent]

/-- What a line can be to the parser, with the state it leads to. -/
inductive LineStep (state : ParserState) (line : Bytes) : Prop
  | closes {box : DiagnosticBox} (hbox : state.box = some box)
      (hclose : DiagnosticBox.closes line = true)
      (hnext : parseLine state line =
        { state with findings := state.findings ++ box.toFinding.toList, box := none })
  | row {box : DiagnosticBox} (hbox : state.box = some box)
      (hclose : DiagnosticBox.closes line = false)
      (hnext : parseLine state line = { state with box := some (box.addRow line) })
  | opens (hbox : state.box = none) (hopen : DiagnosticBox.opens line = true)
      (hnext : parseLine state line = { state with inBoundsReport := false, box := some {} })
  | continues (hbox : state.box = none) (hopen : DiagnosticBox.opens line = false)
      (hbounds : state.inBoundsReport = true) (hindent : startsWith line (lit "  ") = true)
      (hnext : parseLine state line =
        { state with findings := state.findings.modifyLast (continueReport line) })
  | examines (hbox : state.box = none) (hopen : DiagnosticBox.opens line = false)
      (hindent : (state.inBoundsReport && startsWith line (lit "  ")) = false)
      (hnext : parseLine state line =
        { state with
          findings := state.findings ++ (reportFinding line).toList
          inBoundsReport := (boundsFinding line).isSome })

/-- Every line is one of these. -/
theorem line_step (state : ParserState) (line : Bytes) : LineStep state line := by
  cases hbox : state.box with
  | some box =>
      cases hclose : DiagnosticBox.closes line with
      | true => exact .closes hbox hclose (parse_line_close hbox hclose)
      | false => exact .row hbox hclose (parse_line_row hbox hclose)
  | none =>
      cases hopen : DiagnosticBox.opens line with
      | true => exact .opens hbox hopen (parse_line_open hbox hopen)
      | false =>
          cases hindent : state.inBoundsReport && startsWith line (lit "  ") with
          | false => exact .examines hbox hopen hindent (parse_line_examine hbox hopen hindent)
          | true =>
              rw [Bool.and_eq_true] at hindent
              exact .continues hbox hopen hindent.1 hindent.2
                (parse_line_continue hbox hopen hindent.1 hindent.2)

/-! ## The modes of a run -/

/-- A line of an exclusive state leads to an exclusive state. -/
theorem parse_line_exclusive {state : ParserState} (h : state.Exclusive) (line : Bytes) :
    (parseLine state line).Exclusive := by
  unfold ParserState.Exclusive at h ⊢
  cases line_step state line with
  | closes _ _ hnext => simp [hnext]
  | row hbox _ hnext => simp [hnext, h (by simp [hbox])]
  | opens _ _ hnext => simp [hnext]
  | continues hbox _ _ _ hnext => simp [hnext, hbox]
  | examines hbox _ _ hnext => simp [hnext, hbox]

/-- One line moves the mode as `Mode.next` does. -/
theorem mode_parse_line {state : ParserState} (h : state.Exclusive) (line : Bytes) :
    (parseLine state line).mode = state.mode.next line := by
  cases line_step state line with
  | closes hbox hclose hnext =>
      have hbounds := h (by simp [hbox])
      simp [hnext, ParserState.mode, Mode.next, hbox, hbounds, hclose]
  | row hbox hclose hnext => simp [hnext, ParserState.mode, Mode.next, hbox, hclose]
  | opens hbox hopen hnext =>
      cases hbounds : state.inBoundsReport <;>
        simp [hnext, ParserState.mode, Mode.next, hbox, hbounds, hopen]
  | continues hbox hopen hbounds hindent hnext =>
      simp [hnext, ParserState.mode, Mode.next, hbox, hbounds, hopen, hindent]
  | examines hbox hopen hindent hnext =>
      cases hbounds : state.inBoundsReport <;> cases hfind : boundsFinding line <;>
        simp_all [ParserState.mode, Mode.next]

/-- The states of a run are exclusive. -/
theorem parse_lines_exclusive {state : ParserState} (h : state.Exclusive) (lines : List Bytes) :
    (parseLines state lines).Exclusive := by
  induction lines generalizing state with
  | nil => exact h
  | cons line lines ih => exact ih (parse_line_exclusive h line)

/-- The mode of a run follows `Mode.next`. -/
theorem mode_parse_lines_from {state : ParserState} (h : state.Exclusive) (lines : List Bytes) :
    (parseLines state lines).mode = lines.foldl Mode.next state.mode := by
  induction lines generalizing state with
  | nil => rfl
  | cons line lines ih =>
      rw [parse_lines_cons, ih (parse_line_exclusive h line), mode_parse_line h, List.foldl_cons]

/-- The mode of the parser depends on the lines through `modeAfter` alone. -/
theorem mode_parse_lines (lines : List Bytes) : (parseLines {} lines).mode = modeAfter lines :=
  mode_parse_lines_from (by simp [ParserState.Exclusive]) lines

/-- The parser gives the lines of an open box to it, up to the one that closes it. -/
theorem parse_rows {state : ParserState} {box : DiagnosticBox} (hbox : state.box = some box)
    {lines : List Bytes} (h : ∀ line ∈ lines, DiagnosticBox.closes line = false) :
    parseLines state lines = { state with box := some (lines.foldl DiagnosticBox.addRow box) } := by
  induction lines generalizing state box with
  | nil => simp [← hbox]
  | cons line lines ih =>
      have hrest := fun l hl => h l (List.mem_cons_of_mem line hl)
      rw [parse_lines_cons, parse_line_row hbox (h line (by simp)), ih rfl hrest]
      rfl

/-- What a line can do to the findings: push one, or none, or update the last one. -/
theorem parse_line_findings (state : ParserState) (line : Bytes) :
    (∃ pushed : Option Finding,
        (parseLine state line).findings = state.findings ++ pushed.toList) ∨
      (parseLine state line).findings = state.findings.modifyLast (continueReport line) := by
  cases line_step state line with
  | closes _ _ hnext => exact .inl ⟨_, by rw [hnext]⟩
  | row _ _ hnext => exact .inl ⟨none, by simp [hnext]⟩
  | opens _ _ hnext => exact .inl ⟨none, by simp [hnext]⟩
  | continues _ _ _ _ hnext => exact .inr (by rw [hnext])
  | examines _ _ _ hnext => exact .inl ⟨_, by rw [hnext]⟩

/-! ## What later lines leave of a finding -/

/-- The findings report the same error: they differ in their sites at most. -/
structure SameReport (finding other : Finding) : Prop where
  rule : finding.rule = other.rule
  cwe : finding.cwe = other.cwe
  severity : finding.severity = other.severity
  message : finding.message = other.message

theorem SameReport.refl (finding : Finding) : SameReport finding finding :=
  ⟨rfl, rfl, rfl, rfl⟩

theorem SameReport.trans {first second third : Finding} (h : SameReport first second)
    (h' : SameReport second third) : SameReport first third :=
  ⟨h.rule.trans h'.rule, h.cwe.trans h'.cwe, h.severity.trans h'.severity,
    h.message.trans h'.message⟩

/-- An indented line changes the sites of a finding only. -/
theorem continue_report_same (line : Bytes) (finding : Finding) :
    SameReport finding (continueReport line finding) := by
  unfold continueReport
  cases field line (lit "access") <;> cases field line (lit "alloc_site") <;>
    exact ⟨rfl, rfl, rfl, rfl⟩

/-- Updating the last finding keeps their number. -/
theorem length_modify_last (update : Finding → Finding) (findings : List Finding) :
    (findings.modifyLast update).length = findings.length := by
  induction findings using List.reverseRecOn with
  | nil => rfl
  | append_singleton init last _ => simp [List.modifyLast_concat]

/-- No line removes a finding. -/
theorem parse_line_length_le (state : ParserState) (line : Bytes) :
    state.findings.length ≤ (parseLine state line).findings.length := by
  rcases parse_line_findings state line with ⟨pushed, h⟩ | h
  · simp [h]
  · rw [h, length_modify_last]

/-- A line keeps every report found so far. -/
theorem parse_line_keeps {state : ParserState} {i : Nat} {finding : Finding} (line : Bytes)
    (hget : state.findings[i]? = some finding) :
    ∃ kept, (parseLine state line).findings[i]? = some kept ∧ SameReport finding kept := by
  obtain ⟨hlt, _⟩ := List.getElem?_eq_some_iff.mp hget
  rcases parse_line_findings state line with ⟨pushed, h⟩ | h
  · exact ⟨finding, by rw [h, List.getElem?_append_left hlt, hget], .refl finding⟩
  · rw [h]
    generalize hfindings : state.findings = findings at hget hlt
    cases findings using List.reverseRecOn with
    | nil => simp at hlt
    | append_singleton init last =>
        rw [List.modifyLast_concat]
        rcases Nat.lt_or_ge i init.length with hi | hi
        · refine ⟨finding, ?_, .refl finding⟩
          rw [List.getElem?_append_left hi] at hget ⊢
          exact hget
        · have hlast : i = init.length := by
            simp only [List.length_append, List.length_singleton] at hlt
            omega
          subst hlast
          have heq : last = finding := by simpa using hget
          subst heq
          exact ⟨continueReport line last, by simp, continue_report_same line last⟩

/-- A run keeps every report found so far. -/
theorem parse_lines_keep {state : ParserState} {i : Nat} {finding : Finding} (lines : List Bytes)
    (hget : state.findings[i]? = some finding) :
    ∃ kept, (parseLines state lines).findings[i]? = some kept ∧ SameReport finding kept := by
  induction lines generalizing state finding with
  | nil => exact ⟨finding, hget, .refl finding⟩
  | cons line lines ih =>
      obtain ⟨middle, hmiddle, hsame⟩ := parse_line_keeps line hget
      obtain ⟨kept, hkept, hrest⟩ := ih hmiddle
      exact ⟨kept, hkept, hsame.trans hrest⟩

end RuntimeAnalyzer
