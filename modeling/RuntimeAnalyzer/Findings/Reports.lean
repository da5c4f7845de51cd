import RuntimeAnalyzer.Findings.BoxFinding
import RuntimeAnalyzer.Findings.Problems
import RuntimeAnalyzer.Findings.Recognition

/-!
# Report lines and their findings

A line with a report heading gets a finding of its own exactly when the parser examines it
(`pushes_iff`), the finding stays in the result up to its sites, and a text whose report lines are
all examined has at least as many findings as report lines (`report_lines_le`).
-/

namespace RuntimeAnalyzer

/-! ## Headings -/

/-- A line the runtime logged, with a report heading and no bar of a diagnostic box. -/
def ReportLine (line : Bytes) : Prop :=
  lit "==ct==" <:+: line ∧ ReportHeading line ∧ ¬ lit "│" <:+: line

/-- A line starts a bounds report exactly when it holds one of the three headings. -/
theorem bounds_finding_isSome_iff {line : Bytes} :
    (boundsFinding line).isSome ↔
      ∃ error : BoundsError, lit "ct: " ++ error.rule ++ lit " " <:+: line := by
  have hsearch : ∀ bounds, (boundsFindingOf line bounds).isSome ↔
      lit "ct: " ++ bounds.rule ++ lit " " <:+: line := by
    intro bounds
    rw [boundsFindingOf, ← ListSearch.find_isSome_iff]
    split <;> simp_all
  simp only [boundsFinding, List.findSome?_isSome_iff, hsearch, mem_bounds_rules_iff,
    exists_exists_eq_and]
  rfl

/-- A line is a one-line report exactly when it holds one of the two headings. -/
theorem one_line_report_isSome_iff {line : Bytes} :
    (oneLineReport line).isSome ↔
      lit "(double free)" <:+: line ∨ lit "ct: leak ptr=" <:+: line := by
  rw [oneLineReport, ← contains_iff, ← contains_iff]
  cases contains line (lit "(double free)") <;>
    cases contains line (lit "ct: leak ptr=") <;> simp

/-- A line has a finding of its own exactly when it holds a heading. -/
theorem report_finding_isSome_iff {line : Bytes} :
    (reportFinding line).isSome ↔ ReportHeading line := by
  rw [reportFinding, Option.isSome_or, Bool.or_eq_true, bounds_finding_isSome_iff,
    one_line_report_isSome_iff, ReportHeading]

/-- The finding of the heading of a bounds report. -/
inductive BoundsReportOf (line : Bytes) : Finding → Prop
  | found {bounds : BoundsRule} {pos : Nat} (known : bounds ∈ kBoundsRules)
      (heading : ListSearch.find (lit "ct: " ++ bounds.rule ++ lit " ") line = some pos) :
      BoundsReportOf line
        { rule := bounds.rule
          message := line.drop (pos + 4)
          cwe := if contains (line.drop (pos + 4)) (lit " WRITE ") then bounds.writeCwe
            else bounds.readCwe }

theorem bounds_report {line : Bytes} {finding : Finding} (h : boundsFinding line = some finding) :
    BoundsReportOf line finding := by
  rw [boundsFinding, List.findSome?_eq_some_iff] at h
  obtain ⟨before, bounds, after, htable, hfound, _⟩ := h
  rw [boundsFindingOf] at hfound
  split at hfound
  · cases hfound
  · rename_i hheading
    cases hfound
    exact .found (by simp [htable]) hheading

/-- The finding of a report on one line. -/
inductive OneLineReportOf (line : Bytes) : Finding → Prop
  | doubleFree (heading : contains line (lit "(double free)") = true) :
      OneLineReportOf line
        (oneLineFinding line (lit "double-free") (lit "CWE-415") .error (lit "double free"))
  | leak (heading : contains line (lit "ct: leak ptr=") = true) :
      OneLineReportOf line
        (oneLineFinding line (lit "memory-leak") (lit "CWE-401") .warning (leakMessage line))

theorem one_line_report {line : Bytes} {finding : Finding} (h : oneLineReport line = some finding) :
    OneLineReportOf line finding := by
  rw [oneLineReport] at h
  split at h
  · rename_i hheading
    cases h
    exact .doubleFree hheading
  · split at h
    · rename_i hheading
      cases h
      exact .leak hheading
    · cases h

instance (line : Bytes) : Decidable (ReportHeading line) :=
  decidable_of_iff _ report_finding_isSome_iff

instance (line : Bytes) : Decidable (ReportLine line) :=
  decidable_of_iff
    (contains line (lit "==ct==") ∧ ReportHeading line ∧ ¬ contains line (lit "│"))
    (by rw [ReportLine, contains_iff, contains_iff])

/-! ## Findings of lines and findings of boxes -/

/-- The rules of the reports that start on a line. -/
def lineRules : List Bytes :=
  kBoundsRules.map (·.rule) ++ [lit "double-free", lit "memory-leak"]

/-- A line's finding has one of the line rules. -/
theorem report_finding_rule {line : Bytes} {finding : Finding}
    (h : reportFinding line = some finding) : finding.rule ∈ lineRules := by
  rw [reportFinding, Option.or_eq_some_iff] at h
  rcases h with h | ⟨_, h⟩
  · cases bounds_report h with
    | found known => exact List.mem_append_left _ (List.mem_map_of_mem known)
  · cases one_line_report h <;> simp [lineRules, oneLineFinding]

/-- A box's finding has none of them. -/
theorem box_finding_rule {box : DiagnosticBox} {finding : Finding}
    (h : box.toFinding = some finding) : finding.rule ∉ lineRules := by
  have hentries : ∀ entry ∈ DiagnosticBox.otherWarning :: kVtableRules,
      entry.rule ∉ lineRules := by decide
  obtain ⟨entry, hentry, hnames⟩ := DiagnosticBox.to_finding_entry h
  rw [hnames.rule]
  exact hentries entry hentry

/-! ## Examined lines -/

/-- The parser examines the line for a report: no box is open, the line opens none, and it is not
an indented line of a bounds report. -/
def Examined (mode : Mode) (line : Bytes) : Prop :=
  mode ≠ .box ∧ DiagnosticBox.opens line = false ∧
    ¬ (mode = .bounds ∧ startsWith line (lit "  ") = true)

instance (mode : Mode) (line : Bytes) : Decidable (Examined mode line) :=
  inferInstanceAs (Decidable (_ ∧ _))

/-- `Examined` on the parser's own variables. -/
theorem examined_mode_iff {state : ParserState} {line : Bytes} :
    Examined state.mode line ↔
      state.box = none ∧ DiagnosticBox.opens line = false ∧
        (state.inBoundsReport && startsWith line (lit "  ")) = false := by
  cases hbox : state.box <;> cases hbounds : state.inBoundsReport <;>
    simp [Examined, ParserState.mode, hbox, hbounds]

/-- The parser pushes the line's finding. -/
def Pushes (state : ParserState) (line : Bytes) : Prop :=
  ∃ finding, reportFinding line = some finding ∧
    (parseLine state line).findings = state.findings ++ [finding]

/-- The parser pushes a finding for a line with a report heading exactly when it examines the
line. A line it does not examine may close a box, but then it pushes the box's finding. -/
theorem pushes_iff {state : ParserState} {line : Bytes} (hheading : ReportHeading line) :
    Pushes state line ↔ Examined state.mode line := by
  obtain ⟨finding, hfinding⟩ :=
    Option.isSome_iff_exists.mp (report_finding_isSome_iff.mpr hheading)
  rw [examined_mode_iff]
  constructor
  · rintro ⟨pushed, hpushed, hfindings⟩
    cases line_step state line with
    | closes _ _ hnext =>
        rw [hnext, List.append_cancel_left_eq, Option.toList_eq_singleton_iff] at hfindings
        exact absurd (report_finding_rule hpushed) (box_finding_rule hfindings)
    | row _ _ hnext => simp [hnext] at hfindings
    | opens _ _ hnext => simp [hnext] at hfindings
    | continues _ _ _ _ hnext =>
        rw [hnext] at hfindings
        have hlength := congrArg List.length hfindings
        simp [length_modify_last] at hlength
    | examines hbox hopen hindent _ => exact ⟨hbox, hopen, hindent⟩
  · rintro ⟨hbox, hopen, hindent⟩
    exact ⟨finding, hfinding, by rw [parse_line_examine hbox hopen hindent, hfinding]; rfl⟩

/-! ## Report lines of an output -/

/-- The finding of the line after `before` is pushed, and the result of the whole output holds it,
at the place where it was pushed and up to its sites. -/
def Recognized (output : Bytes) (before : List Bytes) (line : Bytes) : Prop :=
  ∃ finding kept, reportFinding line = some finding ∧
    (parseLines {} (before ++ [line])).findings =
      (parseLines {} before).findings ++ [finding] ∧
    (parseFindings output)[(parseLines {} before).findings.length]? = some kept ∧
    SameReport finding kept

/-- Every report line of the output is examined. -/
def ReportsExamined (output : Bytes) : Prop :=
  ∀ before line after, linesOf output = before ++ line :: after → ReportLine line →
    Examined (modeAfter before) line

/-- A report line is recognized exactly when it is examined. -/
theorem recognized_line_iff {output line : Bytes} {before after : List Bytes}
    (hlines : linesOf output = before ++ line :: after) (hheading : ReportHeading line) :
    Recognized output before line ↔ Examined (modeAfter before) line := by
  have hpush : Pushes (parseLines {} before) line ↔ Examined (modeAfter before) line := by
    rw [pushes_iff hheading, mode_parse_lines]
  rw [← hpush]
  constructor
  · rintro ⟨finding, _, hfinding, hpushed, _⟩
    exact ⟨finding, hfinding, by rwa [parse_lines_append] at hpushed⟩
  · rintro ⟨finding, hfinding, hpushed⟩
    have hget : (parseLine (parseLines {} before) line).findings[
        (parseLines {} before).findings.length]? = some finding := by simp [hpushed]
    obtain ⟨kept, hkept, hsame⟩ := parse_lines_keep after hget
    refine ⟨finding, kept, hfinding, by rwa [parse_lines_append], ?_, hsame⟩
    rwa [parseFindings, hlines, parse_lines_append, parse_lines_cons]

/-- Lines whose report lines are all examined add at least as many findings. -/
theorem report_lines_le_from {state : ParserState} (hexclusive : state.Exclusive)
    {lines : List Bytes}
    (h : ∀ before line after, lines = before ++ line :: after → ReportLine line →
      Examined (before.foldl Mode.next state.mode) line) :
    state.findings.length + lines.countP (decide <| ReportLine ·) ≤
      (parseLines state lines).findings.length := by
  induction lines generalizing state with
  | nil => simp
  | cons line lines ih =>
      have hrest := ih (parse_line_exclusive hexclusive line)
        fun before later after hlines hline => by
          rw [mode_parse_line hexclusive, ← List.foldl_cons]
          exact h (line :: before) later after (by rw [hlines, List.cons_append]) hline
      rw [parse_lines_cons, List.countP_cons]
      by_cases hline : ReportLine line
      · have hexamined := h [] line lines rfl hline
        obtain ⟨finding, _, hpushed⟩ := (pushes_iff hline.2.1).mpr hexamined
        have hlength := congrArg List.length hpushed
        simp only [List.length_append, List.length_singleton] at hlength
        simp only [hline, decide_true, if_true]
        omega
      · have hlength := parse_line_length_le state line
        simp only [hline, decide_false, Bool.false_eq_true, if_false]
        omega

/-- An output whose report lines are all examined has at least as many findings as report lines. -/
theorem report_lines_le {output : Bytes} (h : ReportsExamined output) :
    (linesOf output).countP (decide <| ReportLine ·) ≤ (parseFindings output).length := by
  have hcount := @report_lines_le_from {} (by simp [ParserState.Exclusive]) (linesOf output) h
  simpa [parseFindings] using hcount

end RuntimeAnalyzer
