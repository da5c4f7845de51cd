import RuntimeAnalyzer.Findings.BoxFinding
import RuntimeAnalyzer.Findings.Recognition

/-!
# Output that is cut

What the findings of an output say about those of a longer one. The parser never looks back beyond
the finding of the bounds report it is in (`parse_lines_after`), so a text cut at the end of a line
has the findings of the whole up to the sites of its last one (`parse_findings_split`). A box that
the cut leaves open is lost (`cut_box_never_reported`).
-/

namespace RuntimeAnalyzer

/-! ## Earlier findings -/

namespace ParserState

/-- The state with findings in front of its own. -/
def after (state : ParserState) (earlier : List Finding) : ParserState :=
  { state with findings := earlier ++ state.findings }

/-- In a bounds report, the last finding is the one its lines continue. -/
def Anchored (state : ParserState) : Prop :=
  state.inBoundsReport = true → state.findings ≠ []

end ParserState

/-- The state of a run goes on being anchored. -/
theorem parse_line_anchored {state : ParserState} (h : state.Anchored) (line : Bytes) :
    (parseLine state line).Anchored := by
  intro hbounds
  cases line_step state line with
  | closes _ _ hnext =>
      rw [hnext] at hbounds ⊢
      exact List.append_ne_nil_of_left_ne_nil (h hbounds) _
  | row _ _ hnext =>
      rw [hnext] at hbounds ⊢
      exact h hbounds
  | opens _ _ hnext => simp [hnext] at hbounds
  | continues _ _ hstate _ hnext =>
      rw [hnext, ne_eq, ← List.length_eq_zero_iff, length_modify_last, List.length_eq_zero_iff]
      exact h hstate
  | examines _ _ _ hnext =>
      rw [hnext] at hbounds ⊢
      obtain ⟨finding, hfinding⟩ := Option.isSome_iff_exists.mp hbounds
      simp [reportFinding, hfinding]

theorem parse_lines_anchored {state : ParserState} (h : state.Anchored) (lines : List Bytes) :
    (parseLines state lines).Anchored := by
  induction lines generalizing state with
  | nil => exact h
  | cons line lines ih => exact ih (parse_line_anchored h line)

/-- A line does not look at the findings before the state's own. -/
theorem parse_line_after {state : ParserState} (h : state.Anchored) (earlier : List Finding)
    (line : Bytes) :
    parseLine (state.after earlier) line = (parseLine state line).after earlier := by
  have hafter : (state.after earlier).box = state.box := rfl
  cases line_step state line with
  | closes hbox hclose hnext =>
      rw [hnext, parse_line_close (hafter.trans hbox) hclose]
      simp [ParserState.after]
  | row hbox hclose hnext =>
      rw [hnext, parse_line_row (hafter.trans hbox) hclose]
      rfl
  | opens hbox hopen hnext =>
      rw [hnext, parse_line_open (hafter.trans hbox) hopen]
      rfl
  | continues hbox hopen hbounds hindent hnext =>
      -- The finding that is updated is one of the state's own.
      rw [hnext, parse_line_continue (hafter.trans hbox) hopen hbounds hindent]
      simp [ParserState.after, List.modifyLast_append_of_right_ne_nil _ _ _ (h hbounds)]
  | examines hbox hopen hindent hnext =>
      rw [hnext, parse_line_examine (hafter.trans hbox) hopen hindent]
      simp [ParserState.after]

/-- A run does not look at the findings before the state's own. -/
theorem parse_lines_after {state : ParserState} (h : state.Anchored) (earlier : List Finding)
    (lines : List Bytes) :
    parseLines (state.after earlier) lines = (parseLines state lines).after earlier := by
  induction lines generalizing state with
  | nil => rfl
  | cons line lines ih =>
      rw [parse_lines_cons, parse_lines_cons, parse_line_after h, ih (parse_line_anchored h line)]

/-- Outside of a bounds report, no finding is touched any more. -/
theorem parse_lines_findings_append {state : ParserState} (h : state.inBoundsReport = false)
    (lines : List Bytes) :
    (parseLines state lines).findings =
      state.findings ++ (parseLines { state with findings := [] } lines).findings := by
  have hanchored : { state with findings := [] : ParserState }.Anchored := by
    intro hbounds
    simp [h] at hbounds
  have hafter := parse_lines_after hanchored state.findings lines
  rw [show { state with findings := [] : ParserState }.after state.findings = state by
    simp [ParserState.after]] at hafter
  rw [hafter]
  rfl

/-! ## A text cut at the end of a line -/

/-- The text ends at the end of a line. -/
def EndsLine (text : Bytes) : Prop :=
  text = [] ∨ text.getLast? = some newline

/-- The findings of a text as those of a longer one: all are kept, in their places, and only a last
one whose bounds report goes on may get other sites. Where nothing is left open, the findings of
the rest follow as if it had been read alone. -/
structure SplitStable (first second : Bytes) : Prop where
  length_le : (parseFindings first).length ≤ (parseFindings (first ++ second)).length
  kept : ∀ i finding, (parseFindings first)[i]? = some finding →
    ∃ kept, (parseFindings (first ++ second))[i]? = some kept ∧ SameReport finding kept ∧
      (kept = finding ∨
        (i + 1 = (parseFindings first).length ∧ modeAfter (linesOf first) = .bounds))
  appended : modeAfter (linesOf first) ≠ .box →
    (modeAfter (linesOf first) = .bounds → startsWith second (lit "  ") = false) →
    parseFindings (first ++ second) = parseFindings first ++ parseFindings second

/-- The run over a text that is cut at the end of a line. -/
theorem parse_findings_append {first : Bytes} (h : EndsLine first) (second : Bytes) :
    parseFindings (first ++ second) =
      (parseLines (parseLines {} (linesOf first)) (linesOf second)).findings := by
  rw [parseFindings, linesOf, ListSplit.lines_append second h, parse_lines_append]
  rfl

/-- The first line of a text that is not indented is not indented. -/
theorem starts_with_first_line {text line head : Bytes} {more : List Bytes}
    (hlines : linesOf text = line :: more) (h : startsWith text head = false) :
    startsWith line head = false := by
  rw [← Bool.not_eq_true, startsWith_iff] at h ⊢
  exact fun hhead => h (hhead.trans (ListSplit.prefix_of_lines_eq_cons hlines))

/-- A line that is not indented is read as if no bounds report had come before. -/
theorem parse_line_unindented {state : ParserState} {line : Bytes} (hbox : state.box = none)
    (h : startsWith line (lit "  ") = false) :
    parseLine state line = parseLine { state with inBoundsReport := false } line := by
  cases hopen : DiagnosticBox.opens line with
  | true => rw [parse_line_open hbox hopen, parse_line_open (by exact hbox) hopen]
  | false =>
      rw [parse_line_examine hbox hopen (by rw [h, Bool.and_false]),
        parse_line_examine (by exact hbox) hopen (by rw [h, Bool.and_false])]

/-- A text that is not indented is read as if no bounds report had come before. -/
theorem parse_lines_unindented {state : ParserState} {text : Bytes} (hbox : state.box = none)
    (h : startsWith text (lit "  ") = false) :
    (parseLines state (linesOf text)).findings =
      (parseLines { state with inBoundsReport := false } (linesOf text)).findings := by
  cases hlines : linesOf text with
  | nil => rfl
  | cons line more =>
      rw [parse_lines_cons, parse_lines_cons,
        parse_line_unindented hbox (starts_with_first_line hlines h)]

/-- A run keeps its first findings, and the last one up to its sites if its report goes on. -/
theorem parse_lines_kept {state : ParserState} (h : state.Anchored) (lines : List Bytes) {i : Nat}
    {finding : Finding} (hget : state.findings[i]? = some finding) :
    ∃ kept, (parseLines state lines).findings[i]? = some kept ∧ SameReport finding kept ∧
      (kept = finding ∨ (i + 1 = state.findings.length ∧ state.inBoundsReport = true)) := by
  obtain ⟨hlt, _⟩ := List.getElem?_eq_some_iff.mp hget
  cases hbounds : state.inBoundsReport with
  | false =>
      refine ⟨finding, ?_, .refl finding, .inl rfl⟩
      rw [parse_lines_findings_append hbounds, List.getElem?_append_left hlt, hget]
  | true =>
      -- Only the last finding can be touched: the rest stand before the state's own.
      obtain ⟨init, last, hfindings⟩ :=
        (List.eq_nil_or_concat' state.findings).resolve_left (h hbounds)
      have hsplit : { state with findings := [last] : ParserState }.after init = state := by
        rw [ParserState.after, ← hfindings]
      rcases Nat.lt_or_ge i init.length with hi | hi
      · have hown : { state with findings := [last] : ParserState }.Anchored := fun _ => by simp
        have hrun := parse_lines_after hown init lines
        rw [hsplit] at hrun
        refine ⟨finding, ?_, .refl finding, .inl rfl⟩
        rw [hfindings, List.getElem?_append_left hi] at hget
        rw [hrun, ParserState.after, List.getElem?_append_left hi, hget]
      · obtain ⟨kept, hkept, hsame⟩ := parse_lines_keep lines hget
        refine ⟨kept, hkept, hsame, .inr ⟨?_, rfl⟩⟩
        rw [hfindings, List.length_append, List.length_singleton] at hlt ⊢
        omega

/-- Parsing is stable under splitting at the end of a line. -/
theorem parse_findings_split {first : Bytes} (h : EndsLine first) (second : Bytes) :
    SplitStable first second := by
  have hrun := parse_findings_append h second
  have hstart : ({} : ParserState).Exclusive := by simp [ParserState.Exclusive]
  have hexclusive := parse_lines_exclusive hstart (linesOf first)
  have hanchored := @parse_lines_anchored {} (by simp [ParserState.Anchored]) (linesOf first)
  have hkept : ∀ i finding, (parseFindings first)[i]? = some finding → _ :=
    fun i finding hget => parse_lines_kept hanchored (linesOf second) hget
  refine ⟨?_, ?_, ?_⟩
  · by_contra hlt
    rw [not_le] at hlt
    obtain ⟨kept, hget, _⟩ := hkept _ _ (List.getElem?_eq_getElem hlt)
    rw [← hrun] at hget
    have hin := (List.getElem?_eq_some_iff.mp hget).1
    omega
  · intro i finding hget
    rw [hrun, ← mode_parse_lines, mode_eq_bounds_iff hexclusive]
    exact hkept i finding hget
  · rw [hrun, ← mode_parse_lines, mode_eq_bounds_iff hexclusive, ne_eq, mode_eq_box_iff, not_not]
    intro hbox hindent
    cases hbounds : (parseLines {} (linesOf first)).inBoundsReport with
    | false =>
        rw [parse_lines_findings_append hbounds, hbox, hbounds]
        rfl
    | true =>
        rw [parse_lines_unindented hbox (hindent hbounds), parse_lines_findings_append rfl, hbox]
        rfl

/-- The heading of a bounds report, cut from the line with its access site. -/
theorem parse_findings_split_heading :
    EndsLine (lit "ct: heap-buffer-overflow WRITE of size 4\n") ∧
      SplitStable (lit "ct: heap-buffer-overflow WRITE of size 4\n") (lit "  access=a.c:5:15\n") :=
  ⟨.inr (by decide), parse_findings_split (.inr (by decide)) _⟩

/-! ## A box cut by the end of the output -/

/-- Output that ends inside a box: complete reports, then the lines of the box up to the cut, with
a warning that is not empty among them. -/
structure CutBox where
  complete : Bytes
  complete_ends : EndsLine complete
  none_open : modeAfter (linesOf complete) ≠ .box
  cut : Bytes
  opener : Bytes
  rows : List Bytes
  cut_lines : linesOf cut = opener :: rows
  opens : DiagnosticBox.opens opener = true
  still_open : ∀ line ∈ rows, DiagnosticBox.closes line = false
  warned : (rows.foldl DiagnosticBox.addRow {}).warns = true

namespace CutBox

variable (cut : CutBox)

def output : Bytes :=
  cut.complete ++ cut.cut

/-- The rows read before the cut. -/
def box : DiagnosticBox :=
  cut.rows.foldl DiagnosticBox.addRow {}

/-- The box has a finding after those of the complete reports, with the rule that its warnings so
far determine. -/
def Reported : Prop :=
  ∃ finding, parseFindings cut.output = parseFindings cut.complete ++ [finding] ∧
    finding.rule =
      ((DiagnosticBox.entryOf (DiagnosticBox.warnValues cut.box.rows)).getD
        DiagnosticBox.otherWarning).rule

/-- The findings are those of the complete reports: nothing is made of a box that is still open. -/
theorem parse_findings_output : parseFindings cut.output = parseFindings cut.complete := by
  have hbox : (parseLines {} (linesOf cut.complete)).box = none := by
    have hmode := cut.none_open
    rwa [← mode_parse_lines, ne_eq, mode_eq_box_iff, not_not] at hmode
  rw [output, parse_findings_append cut.complete_ends, cut.cut_lines, parse_lines_cons,
    parse_line_open hbox cut.opens, parse_rows rfl cut.still_open]
  rfl

end CutBox

/-- A box that the end of the output cuts off is never reported. -/
theorem cut_box_never_reported (cut : CutBox) : ¬ cut.Reported := by
  rintro ⟨finding, hfindings, _⟩
  rw [cut.parse_findings_output] at hfindings
  have hlength := congrArg List.length hfindings
  simp at hlength

/-- A program that hangs in a virtual call, killed while the box was being printed. -/
def hangingCall : CutBox where
  complete := lit "|1| ==ct== [WARN] ct: leak ptr=0x1 size=16\n"
  complete_ends := .inr (by decide)
  none_open := by decide
  cut :=
    lit "|1| ==ct== [WARN] [VTABLE]\n" ++ lit "|1| ==ct== [WARN] │ warn : null this pointer │\n"
  opener := lit "|1| ==ct== [WARN] [VTABLE]"
  rows := [lit "|1| ==ct== [WARN] │ warn : null this pointer │"]
  cut_lines := by decide
  opens := by decide
  still_open := by decide
  warned := by decide

/-- Only the leak before the box is reported. -/
theorem hanging_call_is_lost :
    (parseFindings hangingCall.output).map (·.rule) = [lit "memory-leak"] ∧
      ¬ hangingCall.Reported := by
  have hrules : (parseFindings hangingCall.output).map (·.rule) = [lit "memory-leak"] := by decide
  have hcomplete : (parseFindings hangingCall.complete).map (·.rule) = [lit "memory-leak"] := by
    decide
  refine ⟨hrules, fun hreported => ?_⟩
  obtain ⟨finding, hfindings, _⟩ := hreported
  rw [hfindings, List.map_append, hcomplete] at hrules
  simp at hrules

end RuntimeAnalyzer
