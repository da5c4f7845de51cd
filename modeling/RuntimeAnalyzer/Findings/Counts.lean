import RuntimeAnalyzer.Findings.Origins

/-!
# How many findings a text has

The findings of a kind of rule, counted off the lines. `countLines` counts the lines that a test
accepts in their place: the mode of the parser before the line, and the lines after it.
`count_line_findings` and `count_box_findings` say which lines the findings of the two sorts are
counted by.
-/

namespace RuntimeAnalyzer

/-! ## Counting lines in their places -/

/-- The number of lines that a test accepts, given the parser's mode and the lines that follow. -/
def countLines (test : Mode → Bytes → List Bytes → Bool) : Mode → List Bytes → Nat
  | _, [] => 0
  | mode, line :: after =>
      (if test mode line after then 1 else 0) + countLines test (mode.next line) after

/-- The same from the beginning of a text. -/
def countInText (test : Mode → Bytes → List Bytes → Bool) (text : Bytes) : Nat :=
  countLines test .idle (linesOf text)

variable {test other : Mode → Bytes → List Bytes → Bool}

/-- A test of the line alone counts as `countP` does. -/
theorem count_lines_of_line (accepts : Bytes → Bool) (mode : Mode) (lines : List Bytes) :
    countLines (fun _ line _ => accepts line) mode lines = lines.countP accepts := by
  induction lines generalizing mode with
  | nil => rfl
  | cons line lines ih =>
      rw [countLines, ih, List.countP_cons, Nat.add_comm]

/-- A stronger test accepts no more lines. -/
theorem count_lines_mono (h : ∀ mode line after, test mode line after → other mode line after)
    (mode : Mode) (lines : List Bytes) :
    countLines test mode lines ≤ countLines other mode lines := by
  induction lines generalizing mode with
  | nil => exact Nat.le_refl _
  | cons line lines ih =>
      refine Nat.add_le_add ?_ (ih _)
      by_cases htest : test mode line lines = true
      · simp [htest, h mode line lines htest]
      · simp [htest]

/-- Lines that both tests accept count on both sides. -/
theorem count_lines_exchange (mode : Mode) (lines : List Bytes) :
    countLines test mode lines +
        countLines (fun mode line after => other mode line after && !test mode line after)
          mode lines =
      countLines (fun mode line after => test mode line after && !other mode line after)
          mode lines + countLines other mode lines := by
  induction lines generalizing mode with
  | nil => rfl
  | cons line lines ih =>
      have hrest := ih (mode.next line)
      simp only [countLines]
      by_cases htest : test mode line lines = true <;>
        by_cases hother : other mode line lines = true <;> simp [htest, hother] <;> omega

/-! ## Findings of a kind of rule -/

/-- The number of findings with a rule of a kind. -/
def countRules (kind : Bytes → Bool) (findings : List Finding) : Nat :=
  findings.countP (kind ·.rule)

variable {kind : Bytes → Bool}

theorem count_rules_append (first second : List Finding) :
    countRules kind (first ++ second) = countRules kind first + countRules kind second :=
  List.countP_append

/-- The lines that continue a bounds report leave the rules. -/
theorem count_rules_continue (line : Bytes) (findings : List Finding) :
    countRules kind (findings.modifyLast (continueReport line)) = countRules kind findings := by
  rcases List.eq_nil_or_concat' findings with rfl | ⟨init, last, rfl⟩
  · rfl
  · have hrule := (continue_report_same line last).rule
    rw [List.modifyLast_concat, count_rules_append, count_rules_append]
    simp [countRules, hrule]

/-- The line has a finding with a rule of the kind. -/
def reportsKind (kind : Bytes → Bool) (mode : Mode) (line : Bytes) : Bool :=
  Examined mode line && (reportFinding line).any (kind ·.rule)

/-- The number of findings of a line. -/
theorem count_rules_toList (found : Option Finding) :
    countRules kind found.toList = if found.any (kind ·.rule) then 1 else 0 := by
  cases found with
  | none => rfl
  | some finding => cases hkind : kind finding.rule <;> simp [countRules, hkind]

/-- A line adds the finding of a kind that no box has when it is examined and has one. -/
theorem count_line_findings_step (hkinds : ∀ rule, kind rule = true → rule ∈ lineRules)
    (state : ParserState) (line : Bytes) :
    countRules kind (parseLine state line).findings =
      countRules kind state.findings + if reportsKind kind state.mode line then 1 else 0 := by
  have hskipped : ¬ Examined state.mode line → reportsKind kind state.mode line = false := by
    intro hnot
    simp [reportsKind, hnot]
  rw [examined_mode_iff] at hskipped
  cases line_step state line with
  | @closes box hbox _ hnext =>
      have hnone : box.toFinding.any (kind ·.rule) = false := by
        cases hfinding : box.toFinding with
        | none => rfl
        | some finding =>
            have hrule := box_finding_rule hfinding
            simpa using fun hkind => hrule (hkinds _ hkind)
      rw [hnext, hskipped (by simp [hbox]), count_rules_append, count_rules_toList, hnone]
  | row hbox _ hnext => simp [hnext, hskipped (by simp [hbox])]
  | opens _ hopen hnext => simp [hnext, hskipped (by simp [hopen])]
  | continues _ _ hbounds hindent hnext =>
      rw [hnext, hskipped (by simp [hbounds, hindent]), count_rules_continue]
      simp
  | examines hbox hopen hindent hnext =>
      have hexamined : Examined state.mode line := examined_mode_iff.mpr ⟨hbox, hopen, hindent⟩
      rw [hnext, count_rules_append, count_rules_toList]
      simp [reportsKind, hexamined]

/-- The findings of a kind that no box has are counted by the examined lines that have one. -/
theorem count_line_findings (hbox : ∀ rule, kind rule = true → rule ∈ lineRules)
    {state : ParserState} (h : state.Exclusive) (lines : List Bytes) :
    countRules kind (parseLines state lines).findings =
      countRules kind state.findings +
        countLines (fun mode line _ => reportsKind kind mode line) state.mode lines := by
  induction lines generalizing state with
  | nil => rfl
  | cons line lines ih =>
      rw [parse_lines_cons, ih (parse_line_exclusive h line), count_line_findings_step hbox,
        mode_parse_line h, countLines, Nat.add_assoc]

/-- The findings of a text of a kind that no box has. -/
theorem count_line_findings_of_text (hbox : ∀ rule, kind rule = true → rule ∈ lineRules)
    (text : Bytes) :
    countRules kind (parseFindings text) =
      countInText (fun mode line _ => reportsKind kind mode line) text := by
  have hcount := @count_line_findings kind hbox {} (by simp [ParserState.Exclusive]) (linesOf text)
  rw [parseFindings, hcount]
  exact Nat.zero_add _

/-! ## Findings of boxes -/

/-- The line opens a box that closes with a warning. -/
def opensReportedBox (mode : Mode) (line : Bytes) (after : List Bytes) : Bool :=
  mode ≠ .box && DiagnosticBox.opens line && closesWithWarning {} after

/-- The open box, if there is one that will be reported. -/
def pendingBox (state : ParserState) (lines : List Bytes) : Nat :=
  match state.box with
  | none => 0
  | some box => if closesWithWarning box lines then 1 else 0

/-- A line adds the finding of the open box when it closes it, and opens a box at most. -/
theorem count_box_findings_step (hbox : ∀ {box : DiagnosticBox} {finding : Finding},
      box.toFinding = some finding → kind finding.rule = true)
    (hline : ∀ rule ∈ lineRules, kind rule = false) (state : ParserState) (line : Bytes)
    (lines : List Bytes) :
    countRules kind (parseLine state line).findings + pendingBox (parseLine state line) lines =
      countRules kind state.findings + pendingBox state (line :: lines) +
        if opensReportedBox state.mode line lines then 1 else 0 := by
  have hmode := @mode_eq_box_iff state
  cases line_step state line with
  | @closes box hopen hclose hnext =>
      -- The box has a finding exactly when it warns.
      have hfinding : box.toFinding.any (kind ·.rule) = box.warns := by
        cases hfound : box.toFinding with
        | none =>
            have hnot : ¬ box.warns = true := by
              rw [← DiagnosticBox.to_finding_isSome_iff, hfound]
              simp
            simpa using hnot
        | some finding =>
            have hwarns : box.warns = true := by
              rw [← DiagnosticBox.to_finding_isSome_iff, hfound]
              rfl
            simp [hbox hfound, hwarns]
      rw [hnext, count_rules_append, count_rules_toList, hfinding]
      simp [pendingBox, closesWithWarning, opensReportedBox, hopen, hclose, hmode]
  | row hopen hclose hnext =>
      simp [hnext, pendingBox, closesWithWarning, opensReportedBox, hopen, hclose, hmode]
  | opens hopen hopens hnext => simp [hnext, pendingBox, opensReportedBox, hopen, hopens, hmode]
  | continues hopen hopens _ _ hnext =>
      rw [hnext, count_rules_continue]
      simp [pendingBox, opensReportedBox, hopen, hopens]
  | examines hopen hopens _ hnext =>
      have hfound : (reportFinding line).any (kind ·.rule) = false := by
        cases hfinding : reportFinding line with
        | none => rfl
        | some finding => simpa using hline _ (report_finding_rule hfinding)
      rw [hnext, count_rules_append, count_rules_toList, hfound]
      simp [pendingBox, opensReportedBox, hopen, hopens]

/-- The findings of boxes are counted by the lines that open a box which closes with a warning. -/
theorem count_box_findings (hbox : ∀ {box : DiagnosticBox} {finding : Finding},
      box.toFinding = some finding → kind finding.rule = true)
    (hline : ∀ rule ∈ lineRules, kind rule = false) {state : ParserState} (h : state.Exclusive)
    (lines : List Bytes) :
    countRules kind (parseLines state lines).findings =
      countRules kind state.findings + pendingBox state lines +
        countLines opensReportedBox state.mode lines := by
  induction lines generalizing state with
  | nil =>
      have hpending : pendingBox state [] = 0 := by
        unfold pendingBox
        split <;> rfl
      rw [hpending]
      rfl
  | cons line lines ih =>
      have hstep := count_box_findings_step (@hbox) hline state line lines
      rw [parse_lines_cons, ih (parse_line_exclusive h line), hstep, mode_parse_line h, countLines,
        Nat.add_assoc]

/-- The findings of a text of the kind that boxes have. -/
theorem count_box_findings_of_text (hbox : ∀ {box : DiagnosticBox} {finding : Finding},
      box.toFinding = some finding → kind finding.rule = true)
    (hline : ∀ rule ∈ lineRules, kind rule = false) (text : Bytes) :
    countRules kind (parseFindings text) = countInText opensReportedBox text := by
  have hcount := @count_box_findings kind hbox hline {} (by simp [ParserState.Exclusive])
    (linesOf text)
  rw [parseFindings, hcount]
  exact Nat.zero_add _

end RuntimeAnalyzer
