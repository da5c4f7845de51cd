import RuntimeAnalyzer.Findings.Rows

/-!
# The boxes of a log

A row comes back from the lines it is drawn on (`fold_row`), the top of a box adds none, and only
the bottom closes it. So the parser reads the finding of a warning box off its lines
(`WarnBox.parse`).
-/

namespace RuntimeAnalyzer

/-! ## Cells -/

/-- The empty cell. -/
def emptyCell : Cell where
  bytes := []
  no_newline := by simp
  no_corner := by decide
  head_ne := by simp
  last_ne := by simp

/-- A cell has no spaces to trim. -/
theorem trim_cell (cell : Cell) : DiagnosticBox.trim cell.bytes = cell.bytes :=
  DiagnosticBox.trim_eq_self_iff.mpr ⟨cell.head_ne, cell.last_ne⟩

/-! ## Corners -/

/-- A stroke in a line of the runtime is in the text behind the prefix. -/
theorem infix_log_line {needle : Bytes} {text : Bytes} {pid : Nat} {level : Level}
    (hspace : space ∉ needle) (hstroke : stroke ∈ needle)
    (h : needle <:+: logLine pid level text) : needle <:+: text := by
  rw [logLine, ListSplit.infix_append_sep_iff hspace] at h
  rcases h with h | h
  · exact absurd (h.subset hstroke) (stroke_not_mem_log_head pid level)
  · exact h

theorem infix_padded {needle text : Bytes} (hspace : space ∉ needle) (hstroke : stroke ∈ needle)
    {n : Nat} (h : needle <:+: text ++ padding n) : needle <:+: text := by
  cases n with
  | zero => simpa [padding] using h
  | succ n =>
      rw [padding, List.replicate_succ, ListSplit.infix_append_sep_iff hspace] at h
      rcases h with h | h
      · exact h
      · exact absurd (List.eq_of_mem_replicate (h.subset hstroke)) (by decide)

/-- No other stroke occurs among horizontal ones. -/
theorem not_infix_strokes {last : Byte} {tail : Bytes} (n : Nat) (hlast : last ≠ 128)
    (htail : ¬ [stroke, 148, last] <:+: tail) : ¬ [stroke, 148, last] <:+: strokes n ++ tail := by
  induction n with
  | zero => simpa [strokes] using htail
  | succ n ih =>
      have hline : strokes (n + 1) ++ tail = stroke :: 148 :: 128 :: (strokes n ++ tail) := by
        simp [strokes, List.replicate_succ, show lit "─" = [stroke, 148, 128] by decide]
      rw [hline, List.infix_cons_iff, List.infix_cons_iff, List.infix_cons_iff]
      simp only [List.cons_prefix_cons, not_or]
      exact ⟨fun h => hlast h.2.2.1, fun h => absurd h.1 (by decide),
        fun h => absurd h.1 (by decide), ih⟩

theorem newline_not_mem_strokes (n : Nat) : newline ∉ strokes n := by
  have hstroke : newline ∉ lit "─" := by decide
  simp [strokes, hstroke]

/-! ## Rows -/

variable {pid : Nat} {level : Level}

/-- A line of a row, without what makes its part of the value a cell. -/
def RowLine.printed (line : RowLine) : PrintedLine :=
  ⟨line.chunk.bytes, line.labelPadding, line.valuePadding⟩

/-- The lines of a row add one row. -/
theorem fold_row (box : DiagnosticBox) (row : Row) :
    (row.lines pid level).foldl DiagnosticBox.addRow box =
      { rows := box.rows ++ [(row.label.bytes, row.value)] } := by
  have hprinted : row.lines pid level = row.first.printed.line pid level row.label.bytes ::
      (row.wrapped.map RowLine.printed).map (·.line pid level []) := by
    rw [Row.lines, List.map_map]
    rfl
  have hvalue : (row.first.printed :: row.wrapped.map RowLine.printed).flatMap
      (fun line => DiagnosticBox.trim line.chunk) = row.value := by
    rw [← List.map_cons, List.flatMap_map]
    exact List.flatMap_congr fun line _ => trim_cell line.chunk
  rw [hprinted, fold_printed box row.no_colon (by rw [trim_cell]; exact row.label_ne), hvalue,
    trim_cell]

/-- The lines of several rows add the rows in order. -/
theorem fold_rows (box : DiagnosticBox) (rows : List Row) :
    (rows.flatMap (·.lines pid level)).foldl DiagnosticBox.addRow box =
      { rows := box.rows ++ rows.map fun row => (row.label.bytes, row.value) } := by
  induction rows generalizing box with
  | nil => simp
  | cons row rows ih =>
      rw [List.flatMap_cons, List.foldl_append, fold_row, ih]
      simp

/-- No line of a row closes the box. -/
theorem closes_row_line (line : RowLine) (label : Cell) :
    DiagnosticBox.closes (line.line pid level label.bytes) = false := by
  have hspace : space ∉ lit "└" := by decide
  have hcolon : colon ∉ lit "└" := by decide
  have hstroke : stroke ∈ lit "└" := by decide
  have hbar : ¬ lit "└" <:+: lit "│" := by decide
  have hcut : lit "│ " ++ line.text label.bytes ++ lit " │" =
      lit "│" ++ space :: ((label.bytes ++ padding line.labelPadding) ++ colon ::
        ([] ++
          space :: ((line.chunk.bytes ++ padding line.valuePadding) ++ space :: lit "│"))) := by
    rw [show lit "│ " = lit "│" ++ [space] by decide, show lit " │" = [space] ++ lit "│" by decide]
    simp [RowLine.text]
  rw [DiagnosticBox.closes, contains_eq_false_iff]
  intro h
  have hline := infix_log_line hspace hstroke h
  rw [hcut, ListSplit.infix_append_sep_iff hspace, ListSplit.infix_append_sep_iff hcolon,
    ListSplit.infix_append_sep_iff hspace, ListSplit.infix_append_sep_iff hspace] at hline
  -- Between bars, spaces and colons there are the label and the chunk, and neither has a corner.
  rcases hline with h | h | h | h | h
  · exact hbar h
  · exact label.no_corner (infix_padded hspace hstroke h)
  · exact absurd (h.subset hstroke) (by simp)
  · exact line.chunk.no_corner (infix_padded hspace hstroke h)
  · exact hbar h

/-! ## The lines around the rows -/

theorem log_line_eq (pid : Nat) (level : Level) (text : Bytes) :
    logLine pid level text = unwords (logPrefix pid level ++ [text]) := by
  rw [logLine, unwords_append (log_prefix_ne_nil pid level) (by simp)]
  simp [unwords]

namespace Frame

variable (frame : Frame)

/-- The top of a box shows no bar and no corner of the bottom. -/
theorem not_infix_top {last : Byte} (hlast : last = 130 ∨ last = 148)
    (htitle : ¬ [stroke, 148, last] <:+: frame.title.bytes) :
    ¬ [stroke, 148, last] <:+: frame.top level := by
  have hspace : space ∉ [stroke, 148, last] := by
    rcases hlast with rfl | rfl <;> decide
  have hcorner : ¬ [stroke, 148, last] <:+: lit "┌─" := by
    rcases hlast with rfl | rfl <;> decide
  have hend : ¬ [stroke, 148, last] <:+: lit "┐" := by
    rcases hlast with rfl | rfl <;> decide
  have hne : last ≠ 128 := by
    rcases hlast with rfl | rfl <;> decide
  have hcut : lit "┌─ " ++ frame.title.bytes ++ space :: strokes frame.topWidth ++ lit "┐" =
      lit "┌─" ++ space :: (frame.title.bytes ++ space :: (strokes frame.topWidth ++ lit "┐")) := by
    rw [show lit "┌─ " = lit "┌─" ++ [space] by decide]
    simp
  intro h
  have htext := infix_log_line hspace (by simp) h
  rw [hcut, ListSplit.infix_append_sep_iff hspace, ListSplit.infix_append_sep_iff hspace] at htext
  rcases htext with h | h | h
  · exact hcorner h
  · exact htitle h
  · exact not_infix_strokes frame.topWidth hne hend h

/-- The top adds no row. -/
theorem add_row_top (box : DiagnosticBox) : box.addRow (frame.top level) = box := by
  have hbar : ¬ lit "│" <:+: frame.top level :=
    frame.not_infix_top (.inl rfl) frame.title.no_bar
  have hpre : lit "│" <+: DiagnosticBox.kOpen := ⟨[space], by decide⟩
  have hfind : ListSearch.find DiagnosticBox.kOpen (frame.top level) = none :=
    ListSearch.find_eq_none_iff.mpr fun h => hbar (hpre.isInfix.trans h)
  rw [DiagnosticBox.addRow, hfind]

/-- The top does not close the box. -/
theorem closes_top : DiagnosticBox.closes (frame.top level) = false :=
  contains_eq_false_iff.mpr (frame.not_infix_top (.inr rfl) frame.title.no_corner)

/-- The bottom does. -/
theorem closes_bottom : DiagnosticBox.closes (frame.bottom level) = true := by
  refine contains_iff.mpr ⟨unwords (logPrefix frame.pid level) ++ [space],
    strokes frame.bottomWidth ++ lit "┘", ?_⟩
  simp [bottom, logLine]

/-- The line that names a box opens it at WARN level. -/
theorem opens_opener : DiagnosticBox.opens (frame.opener .warn) = true := by
  have hends : frame.tag.word <:+ frame.opener .warn :=
    ⟨unwords (logPrefix frame.pid .warn) ++ [space], by simp [opener, logLine]⟩
  have hwarn : lit "[WARN]" <:+: frame.opener .warn :=
    (@unwords_suffix [lit "|" ++ Decimal.render frame.pid ++ lit "|", lit "==ct=="] (by simp)
      (lit "[WARN]")).isInfix.trans (List.prefix_append _ _).isInfix
  rw [DiagnosticBox.opens, contains_iff.mpr hwarn, Bool.true_and]
  cases htag : frame.tag with
  | vtable =>
      rw [htag, BoxTag.word] at hends
      rw [endsWith_iff.mpr hends, Bool.true_or]
  | vcall =>
      rw [htag, BoxTag.word] at hends
      rw [endsWith_iff.mpr hends, Bool.or_true]

/-- It opens none at INFO level. -/
theorem opens_info_opener : DiagnosticBox.opens (frame.opener .info) = false := by
  have hwarn : ¬ lit "[WARN]" <:+: frame.opener .info := by
    have hplain : ∀ word ∈ logPrefix frame.pid .info ++ [frame.tag.word], Plain word := by
      intro word hword
      rcases List.mem_append.mp hword with h | h
      · exact log_prefix_plain h
      · rw [List.mem_singleton.mp h]
        cases frame.tag <;> decide
    have hpid : ¬ lit "[WARN]" <:+: lit "|" ++ Decimal.render frame.pid ++ lit "|" := by
      intro h
      have hbracket : (91 : Byte) ∈ lit "|" ++ Decimal.render frame.pid ++ lit "|" :=
        h.subset (by decide)
      have hrender := Decimal.not_mem_render frame.pid (show Decimal.isDigit 91 = false by decide)
      have hbar : (91 : Byte) ∉ lit "|" := by decide
      simp [hrender, hbar] at hbracket
    have htag : ¬ lit "[WARN]" <:+: frame.tag.word := by cases frame.tag <;> decide
    intro h
    rw [opener, log_line_eq] at h
    obtain ⟨word, hword, hin⟩ := @ListSplit.infix_piece _ _ space _ _ (by decide) h
    rw [show (unwords (logPrefix frame.pid .info ++ [frame.tag.word])).splitOn space = _ from
      words_unwords (by simp) hplain] at hword
    revert word
    simp only [logPrefix, List.cons_append, List.nil_append, List.forall_mem_cons]
    exact ⟨hpid, by decide, by decide, htag, by simp⟩
  rw [DiagnosticBox.opens, contains_eq_false_iff.mpr hwarn, Bool.false_and]

end Frame

/-! ## The parser on the lines of a box -/

/-- A line without a heading that opens no box and is not indented only ends a bounds report. -/
theorem parse_quiet {state : ParserState} {line : Bytes} (hbox : state.box = none)
    (hopen : DiagnosticBox.opens line = false)
    (hindent : (state.inBoundsReport && startsWith line (lit "  ")) = false)
    (hquiet : ¬ ReportHeading line) :
    parseLine state line = { state with inBoundsReport := false } := by
  have hreport : reportFinding line = none := by
    rwa [← Option.not_isSome_iff_eq_none, report_finding_isSome_iff]
  have hbounds : boundsFinding line = none := by
    rw [reportFinding, Option.or_eq_none_iff] at hreport
    exact hreport.1
  rw [parse_line_examine hbox hopen hindent, hreport, hbounds]
  simp

/-- Only the bottom of a box closes it. -/
theorem closes_inside (frame : Frame) {line : Bytes}
    (h : line ∈ frame.top level :: frame.rows.flatMap (·.lines frame.pid level)) :
    DiagnosticBox.closes line = false := by
  rcases List.mem_cons.mp h with rfl | h
  · exact frame.closes_top
  · obtain ⟨row, _, hline⟩ := List.mem_flatMap.mp h
    rcases List.mem_cons.mp hline with rfl | hline
    · exact closes_row_line row.first row.label
    · obtain ⟨wrapped, _, rfl⟩ := List.mem_map.mp hline
      exact closes_row_line wrapped emptyCell

namespace WarnBox

variable (box : WarnBox)

/-- The rows the parser gathers from a box. -/
def parsedRows : List (Bytes × Bytes) :=
  box.rows.map fun row => (row.label.bytes, row.value)

theorem warn_values_parsed : DiagnosticBox.warnValues box.parsedRows = box.warnings := by
  simp [DiagnosticBox.warnValues, parsedRows, Frame.warnings, List.filter_map, Function.comp_def]

/-- The table's entry for the warnings is that of the issue they show. -/
theorem entry_of_warnings :
    ∃ warning, (DiagnosticBox.entryOf box.warnings).getD DiagnosticBox.otherWarning =
      box.issue.entry warning := by
  have hentry : DiagnosticBox.entryOf box.warnings =
      (vtableWarnings.find? fun known => box.warnings.any (startsWith · known.1)).map
        fun known => known.2.entry known.1 := by
    rw [DiagnosticBox.entryOf, vtable_rules_eq, List.find?_map]
    rfl
  rw [hentry, issue]
  cases vtableWarnings.find? fun known => box.warnings.any (startsWith · known.1) with
  | none => exact ⟨[], rfl⟩
  | some known => exact ⟨known.1, rfl⟩

/-- The rows give the box's finding. -/
theorem to_finding_parsed :
    DiagnosticBox.toFinding { rows := box.parsedRows } = some box.finding := by
  have hwarned := box.warned
  have hsame : ∀ row ∈ box.parsedRows, row.1 = lit "site" →
      parseSite row.2 = box.site.bind Site.location := by
    intro row hrow hlabel
    obtain ⟨source, hsource, rfl⟩ := List.mem_map.mp hrow
    have hsite := box.site_rows source hsource hlabel
    obtain ⟨site, hshown, htext⟩ := Option.map_eq_some_iff.mp hsite
    show parseSite source.value = _
    rw [← htext, parse_site_text, hshown, Option.bind_some]
  have hshown : box.site.bind Site.location = none ∨
      ∃ row ∈ box.parsedRows, row.1 = lit "site" := by
    cases hsite : box.site with
    | none => exact .inl rfl
    | some site =>
        obtain ⟨row, hrow, hlabel⟩ := box.site_shown (by rw [hsite]; rfl)
        exact .inr ⟨_, List.mem_map_of_mem hrow, hlabel⟩
  obtain ⟨warning, hentry⟩ := box.entry_of_warnings
  rw [← warn_values_parsed] at hwarned
  rw [DiagnosticBox.to_finding_of_warning hwarned hsame hshown, warn_values_parsed, hentry]
  rfl

/-- The parser reads a box with a warning off its lines. -/
theorem parse {state : ParserState} (hbox : state.box = none) :
    parseLines state (box.lines .warn) =
      { state with findings := state.findings ++ [box.finding], inBoundsReport := false } := by
  have hopened := parse_line_open hbox box.opens_opener
  have hinside : parseLines { state with inBoundsReport := false, box := some {} }
      (box.top .warn :: box.rows.flatMap (·.lines box.pid .warn)) =
        { state with inBoundsReport := false, box := some { rows := box.parsedRows } } := by
    rw [parse_rows rfl fun line => closes_inside box.toFrame, List.foldl_cons, box.add_row_top,
      fold_rows]
    rfl
  have hclosed : parseLine
      { state with inBoundsReport := false, box := some { rows := box.parsedRows } }
        (box.bottom .warn) =
      { state with
        findings := state.findings ++ [box.finding], inBoundsReport := false, box := none } := by
    rw [parse_line_close rfl box.closes_bottom, to_finding_parsed]
    rfl
  rw [Frame.lines, ← List.cons_append, parse_lines_cons, hopened, parse_lines_append, hinside,
    parse_lines_cons, parse_lines_nil, hclosed, hbox]

end WarnBox

/-- None of the lines of a tracing box opens a box. -/
theorem opens_info_lines (frame : Frame) {line : Bytes} (h : line ∈ frame.lines .info) :
    DiagnosticBox.opens line = false := by
  have hrow : ∀ (row : RowLine) (label : Bytes),
      DiagnosticBox.opens (row.line frame.pid .info label) = false := fun row label =>
    @opens_eq_false _ (lit "│") ⟨unwords (logPrefix frame.pid .info) ++ space ::
      (lit "│ " ++ row.text label ++ [space]), by
        simp [RowLine.line, logLine, show lit " │" = space :: lit "│" by decide]⟩
      (by decide) (by decide)
  simp only [Frame.lines, List.mem_cons, List.mem_append, List.mem_flatMap, List.not_mem_nil,
    or_false] at h
  rcases h with rfl | rfl | ⟨row, _, hline⟩ | rfl
  · exact frame.opens_info_opener
  · exact @opens_eq_false _ (lit "┐") ⟨_, by
      rw [Frame.top, logLine, ← List.cons_append, ← List.append_assoc]⟩ (by decide) (by decide)
  · rcases List.mem_cons.mp hline with rfl | hline
    · exact hrow row.first row.label.bytes
    · obtain ⟨wrapped, _, rfl⟩ := List.mem_map.mp hline
      exact hrow wrapped []
  · exact @opens_eq_false _ (lit "┘") ⟨_, by
      rw [Frame.bottom, logLine, ← List.cons_append, ← List.append_assoc]⟩ (by decide) (by decide)

/-- Every line of a box has the prefix. -/
theorem frame_lines_not_indented (frame : Frame) {line : Bytes} (h : line ∈ frame.lines level) :
    startsWith line (lit "  ") = false := by
  have hlog : ∀ text, startsWith (logLine frame.pid level text) (lit "  ") = false := fun text => by
    rw [log_line_eq]
    exact log_line_not_indented frame.pid level [text]
  simp only [Frame.lines, List.mem_cons, List.mem_append, List.mem_flatMap, List.not_mem_nil,
    or_false] at h
  rcases h with rfl | rfl | ⟨row, _, hline⟩ | rfl
  · exact hlog _
  · exact hlog _
  · rcases List.mem_cons.mp hline with rfl | hline
    · exact hlog _
    · obtain ⟨wrapped, _, rfl⟩ := List.mem_map.mp hline
      exact hlog _
  · exact hlog _

/-- Lines that are all quiet only end a bounds report. -/
theorem parse_quiet_lines {state : ParserState} {lines : List Bytes} (hbox : state.box = none)
    (hne : lines ≠ [])
    (h : ∀ line ∈ lines, DiagnosticBox.opens line = false ∧
      startsWith line (lit "  ") = false ∧ ¬ ReportHeading line) :
    parseLines state lines = { state with inBoundsReport := false } := by
  induction lines generalizing state with
  | nil => exact absurd rfl hne
  | cons line lines ih =>
      obtain ⟨hopen, hindent, hquiet⟩ := h line (by simp)
      rw [parse_lines_cons, parse_quiet hbox hopen (by simp [hindent]) hquiet]
      by_cases hlines : lines = []
      · rw [hlines, parse_lines_nil]
      · exact @ih { state with inBoundsReport := false } hbox hlines fun l hl =>
          h l (List.mem_cons_of_mem line hl)

/-- The parser reads nothing off a tracing box. -/
theorem InfoBox.parse (box : InfoBox) {state : ParserState} (hbox : state.box = none) :
    parseLines state (box.lines .info) = { state with inBoundsReport := false } := by
  refine parse_quiet_lines hbox (by simp [Frame.lines]) fun line hline => ?_
  exact ⟨opens_info_lines box.toFrame hline, frame_lines_not_indented box.toFrame hline,
    box.quiet line hline⟩

end RuntimeAnalyzer
