import RuntimeAnalyzer.Findings.LogBoxes
import RuntimeAnalyzer.Findings.LogReports

/-!
# The parser decodes a log

From the finding of each item (`parse_item`) the findings of a whole log, by induction over its
items: `parse_findings_log` is the round trip between the log the runtime writes and the findings
the parser returns.
-/

namespace RuntimeAnalyzer

/-! ## One item -/

/-- Noise under a bounds report leaves the report's finding. -/
theorem continue_noise {line : Bytes} (finding : Finding)
    (h : ∀ word ∈ words line,
      ¬ assign (lit "access") [] <+: word ∧ ¬ assign (lit "alloc_site") [] <+: word) :
    continueReport line finding = finding := by
  have haccess : field line (lit "access") = none := by
    rw [field_eq_find_word (by decide) (by decide), List.findSome?_eq_none_iff]
    exact fun word hword => if_neg (h word hword).1
  have halloc : field line (lit "alloc_site") = none := by
    rw [field_eq_find_word (by decide) (by decide), List.findSome?_eq_none_iff]
    exact fun word hword => if_neg (h word hword).2
  rw [continueReport, haccess, halloc]

/-- Noise adds no finding. -/
theorem NoiseLine.parse (noise : NoiseLine) {state : ParserState} (hbox : state.box = none)
    (hfits : (Item.noise noise).Fits state.inBoundsReport) :
    parseLines state [noise.bytes] =
      { state with
        inBoundsReport := state.inBoundsReport && startsWith noise.bytes (lit "  ") } := by
  have hopen : DiagnosticBox.opens noise.bytes = false :=
    opens_eq_false_iff.mpr noise.no_opener
  rw [parse_lines_cons, parse_lines_nil]
  cases hindent : state.inBoundsReport && startsWith noise.bytes (lit "  ") with
  | true =>
      rw [Bool.and_eq_true] at hindent
      have hsame : state.findings.modifyLast (continueReport noise.bytes) = state.findings := by
        have hwords := hfits hindent.1 hindent.2
        cases hfindings : state.findings using List.reverseRecOn with
        | nil => rfl
        | append_singleton init last => rw [List.modifyLast_concat, continue_noise last hwords]
      rw [parse_line_continue hbox hopen hindent.1 hindent.2, hsame, ← hindent.1]
  | false => exact parse_quiet hbox hopen hindent noise.quiet

/-- The parser pushes an item's finding and nothing else, and closes what the item opens. -/
theorem parse_item {state : ParserState} (item : Item) (hbox : state.box = none)
    (hfits : item.Fits state.inBoundsReport) :
    parseLines state item.lines =
      { state with
        findings := state.findings ++ item.finding.toList
        inBoundsReport := item.leavesReport state.inBoundsReport } := by
  cases item with
  | noise line =>
      rw [Item.lines, line.parse hbox hfits]
      simp [Item.finding, Item.leavesReport]
  | bounds report => exact report.parse hbox
  | doubleFree free => exact free.parse hbox
  | leak block => exact block.parse hbox
  | warnBox box => exact box.parse hbox
  | infoBox box =>
      rw [Item.lines, box.parse hbox]
      simp [Item.finding, Item.leavesReport]

/-- The parser pushes the findings of the items in order. -/
theorem parse_items {state : ParserState} (items : List Item) (hbox : state.box = none)
    (hfits : FitsFrom state.inBoundsReport items) :
    (parseLines state (items.flatMap Item.lines)).findings =
      state.findings ++ items.filterMap Item.finding := by
  induction items generalizing state with
  | nil => simp
  | cons item items ih =>
      rw [List.flatMap_cons, parse_lines_append, parse_item item hbox hfits.1,
        ih (by exact hbox) hfits.2]
      cases hfinding : item.finding <;> simp [hfinding]

/-! ## Lines without newlines -/

theorem newline_not_mem_log_head (pid : Nat) (level : Level) :
    newline ∉ unwords (logPrefix pid level) :=
  newline_not_mem_unwords fun _ hword => (log_prefix_plain hword).2

/-- A line of the runtime is one line if its text is. -/
theorem newline_not_mem_log_line {pid : Nat} {level : Level} {text : Bytes}
    (h : newline ∉ text) : newline ∉ logLine pid level text := by
  have hpre := newline_not_mem_log_head pid level
  simp [logLine, hpre, newline_ne_space, h]

/-- A line of a row is one line. -/
theorem newline_not_mem_row_line (line : RowLine) (label : Cell) (pid : Nat) (level : Level) :
    newline ∉ line.line pid level label.bytes := by
  have hpadding : ∀ n, newline ∉ padding n := fun n h =>
    absurd (List.eq_of_mem_replicate h) (by decide)
  have hopen : newline ∉ lit "│ " := by decide
  have hclose : newline ∉ lit " │" := by decide
  have hcolon : newline ≠ colon := by decide
  refine newline_not_mem_log_line ?_
  simp [RowLine.text, hopen, hclose, hcolon, newline_ne_space, hpadding, label.no_newline,
    line.chunk.no_newline]

/-- The lines of a box are lines. -/
theorem newline_not_mem_frame {frame : Frame} {level : Level} {line : Bytes}
    (h : line ∈ frame.lines level) : newline ∉ line := by
  simp only [Frame.lines, List.mem_cons, List.mem_append, List.mem_flatMap, List.not_mem_nil,
    or_false] at h
  rcases h with rfl | rfl | ⟨row, _, hline⟩ | rfl
  · exact newline_not_mem_log_line (by cases frame.tag <;> decide)
  · have hleft : newline ∉ lit "┌─ " := by decide
    have hright : newline ∉ lit "┐" := by decide
    refine newline_not_mem_log_line ?_
    simp [hleft, hright, newline_ne_space, frame.title.no_newline, newline_not_mem_strokes]
  · rcases List.mem_cons.mp hline with rfl | hline
    · exact newline_not_mem_row_line row.first row.label _ _
    · obtain ⟨wrapped, _, rfl⟩ := List.mem_map.mp hline
      exact newline_not_mem_row_line wrapped emptyCell _ _
  · have hleft : newline ∉ lit "└" := by decide
    have hright : newline ∉ lit "┘" := by decide
    refine newline_not_mem_log_line ?_
    simp [hleft, hright, newline_not_mem_strokes]

/-- The lines of an item are lines. -/
theorem newline_not_mem_item {item : Item} {line : Bytes} (h : line ∈ item.lines) :
    newline ∉ line := by
  cases item with
  | noise noise => exact List.mem_singleton.mp h ▸ noise.no_newline
  | bounds report =>
      simp only [Item.lines, BoundsReport.lines, List.mem_cons, List.not_mem_nil, or_false] at h
      rcases h with rfl | rfl | rfl
      · rw [report.heading_eq]
        refine newline_not_mem_unwords fun word hword => ?_
        rcases List.mem_append.mp hword with h | h
        · exact (report.up_to_rule_plain h).2
        · exact (report.access_on_plain h).2
      · exact newline_not_mem_unwords fun word hword => (report.access_words_plain word hword).2
      · exact newline_not_mem_unwords fun word hword => (report.alloc_words_plain word hword).2
  | doubleFree free =>
      rw [List.mem_singleton.mp h]
      exact newline_not_mem_unwords fun word hword => (free.words_plain word hword).2
  | leak block =>
      rw [List.mem_singleton.mp h]
      exact newline_not_mem_unwords fun word hword => (block.words_plain word hword).2
  | warnBox box => exact newline_not_mem_frame h
  | infoBox box => exact newline_not_mem_frame h

/-! ## The log -/

/-- An empty line changes no finding. -/
theorem parse_empty_line (state : ParserState) :
    (parseLine state []).findings = state.findings := by
  cases hbox : state.box with
  | some box => rw [parse_line_row hbox (by decide)]
  | none =>
      have hindent : (state.inBoundsReport && startsWith [] (lit "  ")) = false := by
        rw [show startsWith [] (lit "  ") = false by decide, Bool.and_false]
      rw [parse_quiet hbox (by decide) hindent (by decide)]

/-- The parser reads a log as it is written. -/
theorem parse_log_text {log : Log} {text : Bytes} (h : log.WrittenAs text) :
    parseFindings text = log.findings := by
  have hlines : (parseLines {} log.lines).findings = log.findings := by
    rw [Log.lines, parse_items log.items rfl log.fits]
    rfl
  have hnewline : ∀ line ∈ log.lines, newline ∉ line := by
    intro line hline
    obtain ⟨item, _, hitem⟩ := List.mem_flatMap.mp hline
    exact newline_not_mem_item hitem
  rcases h with rfl | rfl
  · rw [parseFindings, linesOf, Log.text]
    rcases ListSplit.lines_intercalate hnewline with hsame | ⟨init, hinit, hsame⟩
    · rw [hsame, hlines]
    -- A last line that is empty adds nothing.
    · rw [hsame, ← hlines, hinit, parse_lines_append, parse_lines_cons, parse_lines_nil,
        parse_empty_line]
  · rw [parseFindings, linesOf, ListSplit.lines_flatMap hnewline, hlines]

/-- The parser decodes every well-formed log exactly, whether its lines are joined by newlines or
each ends in one: it returns the finding of each report, in order, and no other. -/
theorem parse_findings_log (log : Log) :
    parseFindings log.text = log.findings ∧
      parseFindings (log.lines.flatMap (· ++ [newline])) = log.findings :=
  ⟨parse_log_text (.inl rfl), parse_log_text (.inr rfl)⟩

/-- A row of a box with a short value. -/
def typeRow : Row where
  label := ⟨lit "type", by decide, by decide, by decide, by decide⟩
  label_ne := by decide
  no_colon := by decide
  first := ⟨⟨lit "Derived", by decide, by decide, by decide, by decide⟩, 1, 4⟩
  wrapped := []

/-- The label of the rows that warn. -/
def warnLabel : Bytes :=
  lit "warn"

/-- A box that shows a call whose object is of another type, with a warning on two lines. -/
def mismatchBox : WarnBox where
  pid := 1
  tag := .vcall
  title := ⟨lit "vcall", by decide, by decide, by decide⟩
  topWidth := 12
  bottomWidth := 20
  rows :=
    [{ label := ⟨lit "site", by decide, by decide, by decide, by decide⟩
       label_ne := by decide
       no_colon := by decide
       first := ⟨⟨lit "a.cpp:24:5", by decide, by decide, by decide, by decide⟩, 1, 1⟩
       wrapped := [] },
      typeRow,
      { label := ⟨warnLabel, by decide, by decide, by decide, by decide⟩
        label_ne := by decide
        no_colon := by decide
        first := ⟨⟨lit "static!=dyn", by decide, by decide, by decide, by decide⟩, 1, 0⟩
        wrapped := [⟨⟨lit "amic type", by decide, by decide, by decide, by decide⟩, 5, 2⟩] }]
  site := some
    (.known
      { file := lit "a.cpp"
        line := 24
        column := some 5
        file_ne := by decide
        no_space := by decide
        no_newline := by decide
        line_pos := by decide
        line_lt := by decide
        column_lt := by decide
        not_number := nofun })
  warned := by decide
  site_rows := by decide
  site_shown := by decide

/-- A box that traces, a line of the program, and a box that warns. -/
def tracedLog : Log where
  items :=
    [.infoBox
        { pid := 1
          tag := .vcall
          title := ⟨lit "vcall", by decide, by decide, by decide⟩
          topWidth := 12
          bottomWidth := 20
          rows := [typeRow]
          quiet := by decide +kernel },
      .noise ⟨lit "  all calls traced", by decide, by decide, by decide⟩,
      .warnBox mismatchBox]
  fits := ⟨trivial, nofun, trivial, trivial⟩

/-- The one finding of the log is that of the box that warns, its warning in one piece. -/
theorem parse_findings_traced_log :
    parseFindings tracedLog.text =
      [{ rule := lit "vtable-type-mismatch"
         cwe := lit "CWE-843"
         severity := .warning
         message := lit "static!=dynamic type"
         location := some ⟨lit "a.cpp", 24, 5⟩ }] :=
  (parse_findings_log tracedLog).1.trans (by decide +kernel)

end RuntimeAnalyzer
