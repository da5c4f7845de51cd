import RuntimeAnalyzer.Findings.Reports
import RuntimeAnalyzer.Findings.SiteText
import RuntimeAnalyzer.Report
import RuntimeAnalyzer.Sarif

/-!
# What can be published of a finding

Whatever a program prints, each finding has a rule, a CWE and a level that the documentation lists,
a message, and sites that lead to a line of a file. `Publishable` says so of one finding and
`publishable_step` that no line of the output undoes it; `findings_published` is what the SARIF log
and the text summary have of it.
-/

namespace RuntimeAnalyzer

/-- The rules with their CWEs and levels, as the README lists them. -/
def documented : List (Bytes × Bytes × Severity) :=
  [(lit "heap-buffer-overflow", lit "CWE-122", .error),
    (lit "heap-buffer-overflow", lit "CWE-125", .error),
    (lit "stack-buffer-overflow", lit "CWE-121", .error),
    (lit "stack-buffer-overflow", lit "CWE-125", .error),
    (lit "heap-use-after-free", lit "CWE-416", .error),
    (lit "double-free", lit "CWE-415", .error),
    (lit "memory-leak", lit "CWE-401", .warning),
    (lit "vtable-null-this", lit "CWE-476", .error),
    (lit "vtable-use-after-free", lit "CWE-416", .error),
    (lit "vtable-corrupted", lit "CWE-843", .error),
    (lit "vcall-invalid-target", lit "CWE-843", .error),
    (lit "vtable-type-mismatch", lit "CWE-843", .warning),
    (lit "vtable-diagnostic", lit "CWE-843", .warning)]

/-- A site that leads to a line of a file. -/
structure SoundSite (site : SourceLocation) : Prop where
  file : site.file ≠ []
  oneLine : newline ∉ site.file
  line : 1 ≤ site.line

/-- What a finding has for its reader. -/
structure Publishable (finding : Finding) : Prop where
  known : (finding.rule, finding.cwe, finding.severity) ∈ documented
  message : finding.message ≠ []
  oneLine : newline ∉ finding.message
  location : ∀ site, finding.location = some site → SoundSite site
  allocation : ∀ site, finding.allocation = some site → SoundSite site
  unallocated : isVtableRule finding.rule = true → finding.allocation = none

variable {line text site value : Bytes} {finding : Finding}

/-! ## Pieces of a line -/

/-- What a number is taken off is a piece of the site. -/
theorem prefix_of_take_number {rest : Bytes} {number : Nat}
    (h : takeNumber site = some (rest, number)) : rest <+: site := by
  obtain ⟨digits, _, rfl, _⟩ := take_number_eq_some_iff.mp h
  exact List.prefix_append rest (colon :: digits)

/-- The file of a site that is read is what the site starts with. -/
theorem parse_site_file {location : SourceLocation} (h : parseSite site = some location) :
    location.file <+: site ∧ location.file ≠ [] ∧ location.line ≠ 0 := by
  have hchecked : ∀ {read : SourceLocation}, read.file <+: site →
      (if read.file = [] ∨ read.line = 0 then none else some read) = some location →
      location.file <+: site ∧ location.file ≠ [] ∧ location.line ≠ 0 := by
    intro read hfile hread
    split at hread
    · cases hread
    · rename_i hvalid
      rw [not_or] at hvalid
      cases hread
      exact ⟨hfile, hvalid.1, hvalid.2⟩
  unfold parseSite at h
  cases htake : takeNumber site with
  | none => simp [htake] at h
  | some first =>
      have hrest := prefix_of_take_number htake
      rw [htake] at h
      cases hfile : takeNumber first.1 with
      | none => exact @hchecked ⟨first.1, first.2, 0⟩ hrest (by simpa only [hfile] using h)
      | some second =>
          have hsecond := (prefix_of_take_number hfile).trans hrest
          exact @hchecked ⟨second.1, second.2, first.2⟩ hsecond (by simpa only [hfile] using h)

/-- A site that is read leads to a line of a file. -/
theorem parse_site_sound (hsite : newline ∉ site) {location : SourceLocation}
    (h : parseSite site = some location) : SoundSite location := by
  obtain ⟨hbegins, hfile, hline⟩ := parse_site_file h
  exact ⟨hfile, fun hmem => hsite (hbegins.subset hmem), Nat.one_le_iff_ne_zero.mpr hline⟩

/-- The value of a field is a piece of the line without a space. -/
theorem field_loop_value {key : Bytes} {turns start : Nat}
    (h : fieldLoop line key turns start = some value) : value ⊆ line ∧ space ∉ value := by
  induction turns generalizing start with
  | zero => cases h
  | succ turns ih =>
      rw [fieldLoop] at h
      split at h
      · cases h
      · dsimp only at h
        split at h
        · cases h
          refine ⟨List.Subset.trans (List.takeWhile_prefix _).subset
            (List.drop_suffix _ _).subset, fun hmem => ?_⟩
          simpa using List.mem_takeWhile_imp hmem
        · exact ih h

theorem field_subset {key : Bytes} (h : field line key = some value) : value ⊆ line :=
  (field_loop_value h).1

theorem space_not_mem_field {key : Bytes} (h : field line key = some value) : space ∉ value :=
  (field_loop_value h).2

/-- The site in a field leads to a line of a file. -/
theorem field_site_sound (hline : newline ∉ line) {key : Bytes} {location : SourceLocation}
    (hfield : field line key = some site) (hsite : parseSite site = some location) :
    SoundSite location :=
  parse_site_sound (fun hmem => hline (field_subset hfield hmem)) hsite

/-! ## Boxes -/

namespace DiagnosticBox

theorem trim_subset (text : Bytes) : trim text ⊆ text :=
  List.Subset.trans (List.rdropWhile_prefix _ _).subset (List.dropWhile_suffix _).subset

/-- The values of the box have no newline. -/
def Clean (box : DiagnosticBox) : Prop :=
  ∀ row ∈ box.rows, newline ∉ row.2

variable {box : DiagnosticBox}

theorem clean_add_text (hbox : box.Clean) (htext : newline ∉ text) : (box.addText text).Clean := by
  unfold addText
  split
  · exact hbox
  · rename_i pos hcolon
    have hvalue : newline ∉ trim (text.drop (pos + 1)) := fun hmem =>
      htext ((List.drop_suffix _ _).subset (trim_subset _ hmem))
    dsimp only
    split
    -- The value goes on in the last row.
    · rename_i hcontinues
      intro row hrow
      unfold appendToLast at hrow
      cases hrows : box.rows using List.reverseRecOn with
      | nil => exact absurd hrows hcontinues.2
      | append_singleton rows last =>
          rw [hrows, List.modifyLast_concat, List.mem_append, List.mem_singleton] at hrow
          rcases hrow with hrow | rfl
          · exact hbox row (by simp [hrows, hrow])
          · have hlast := hbox last (by simp [hrows])
            simp [hlast, hvalue]
    · intro row hrow
      rw [List.mem_append, List.mem_singleton] at hrow
      rcases hrow with hrow | rfl
      · exact hbox row hrow
      · exact hvalue

theorem clean_add_row (hbox : box.Clean) (hline : newline ∉ line) : (box.addRow line).Clean := by
  unfold addRow
  split
  · split
    · exact hbox
    · refine clean_add_text hbox fun hmem => hline ?_
      exact (List.drop_suffix _ _).subset ((List.take_prefix _ _).subset hmem)
  · exact hbox

/-- What is read off clean rows is clean. -/
structure CleanReading (reading : Reading) : Prop where
  message : newline ∉ reading.message
  location : ∀ site, reading.location = some site → SoundSite site

theorem clean_read_row {reading : Reading} (h : CleanReading reading) {row : Bytes × Bytes}
    (hrow : newline ∉ row.2) : CleanReading (readRow reading row) := by
  unfold readRow
  split
  · exact ⟨h.message, fun site hsite => parse_site_sound hrow hsite⟩
  · split
    · exact h
    · have hjoin : newline ∉ lit "; " := by decide
      refine ⟨?_, h.location⟩
      dsimp only
      split <;> simp [h.message, hjoin, hrow]

theorem clean_read_rows {reading : Reading} (h : CleanReading reading)
    {rows : List (Bytes × Bytes)} (hrows : ∀ row ∈ rows, newline ∉ row.2) :
    CleanReading (rows.foldl readRow reading) := by
  induction rows generalizing reading with
  | nil => exact h
  | cons row rows ih =>
      exact ih (clean_read_row h (hrows row List.mem_cons_self))
        fun other hmem => hrows other (List.mem_cons_of_mem row hmem)

/-- The finding of a clean box is publishable. -/
theorem publishable_box (hbox : box.Clean) (h : box.toFinding = some finding) :
    Publishable finding := by
  have hentries : ∀ entry ∈ otherWarning :: kVtableRules,
      (entry.rule, entry.cwe, entry.severity) ∈ documented := by decide
  obtain ⟨entry, hentry, hnames⟩ := to_finding_entry h
  have hclean : CleanReading (box.rows.foldl readRow {}) :=
    clean_read_rows ⟨List.not_mem_nil, by simp⟩ hbox
  unfold toFinding at h
  dsimp only at h
  split at h
  · cases h
  · rename_i hmessage
    cases h
    refine ⟨?_, hmessage, hclean.message, hclean.location, by simp, fun _ => rfl⟩
    rw [hnames.rule, hnames.cwe, hnames.severity]
    exact hentries entry hentry

end DiagnosticBox

/-! ## Reports that start on a line -/

/-- None of the rules of a line is a vtable rule. -/
theorem line_rule_not_vtable {rule : Bytes} (h : rule ∈ lineRules) : isVtableRule rule = false := by
  have hall : ∀ rule ∈ lineRules, isVtableRule rule = false := by decide
  exact hall rule h

theorem publishable_bounds (hline : newline ∉ line) (h : boundsFinding line = some finding) :
    Publishable finding := by
  have hknown : ∀ bounds ∈ kBoundsRules, ∀ cwe ∈ [bounds.writeCwe, bounds.readCwe],
      (bounds.rule, cwe, Severity.error) ∈ documented := by decide
  have hrules : ∀ bounds ∈ kBoundsRules, bounds.rule ≠ [] := by decide
  cases bounds_report h with
  | @found bounds pos known heading =>
      obtain ⟨_, hbegins, _⟩ := ListSearch.find_eq_some_iff.mp heading
      refine ⟨hknown bounds known _ ?_, ?_, ?_, by simp, by simp, fun _ => rfl⟩
      · split <;> simp
      · obtain ⟨after, hafter⟩ := hbegins
        rw [← List.drop_drop, ← hafter]
        simp [show (lit "ct: ").length = 4 from rfl, hrules bounds known]
      · exact fun hmem => hline ((List.drop_suffix _ _).subset hmem)

/-- A report on one line is publishable under a documented rule, with a message of its own. -/
theorem publishable_one_line_finding (hline : newline ∉ line) {rule cwe message : Bytes}
    {severity : Severity} (hknown : (rule, cwe, severity) ∈ documented)
    (hrule : rule ∈ lineRules) (hmessage : message ≠ []) (honeLine : newline ∉ message) :
    Publishable (oneLineFinding line rule cwe severity message) where
  known := hknown
  message := hmessage
  oneLine := honeLine
  location _ h := by
    obtain ⟨site, hfield, hsite⟩ := Option.bind_eq_some_iff.mp h
    exact field_site_sound hline hfield hsite
  allocation _ h := by
    obtain ⟨site, hfield, hsite⟩ := Option.bind_eq_some_iff.mp h
    exact field_site_sound hline hfield hsite
  unallocated hvtable := by
    have hnot := line_rule_not_vtable hrule
    rw [oneLineFinding, hnot] at hvtable
    cases hvtable

theorem newline_not_mem_leak_message (hline : newline ∉ line) : newline ∉ leakMessage line := by
  have hleak : newline ∉ lit "memory leak" := by decide
  unfold leakMessage
  split
  · exact hleak
  · rename_i size hsize
    have hof : newline ∉ lit " of " := by decide
    have hbytes : newline ∉ lit " bytes" := by decide
    have hvalue : newline ∉ size := fun hmem => hline (field_subset hsize hmem)
    simp [hleak, hof, hbytes, hvalue]

theorem leak_message_ne (line : Bytes) : leakMessage line ≠ [] := by
  unfold leakMessage
  split <;> simp

theorem publishable_one_line (hline : newline ∉ line) (h : oneLineReport line = some finding) :
    Publishable finding := by
  cases one_line_report h with
  | doubleFree =>
      exact publishable_one_line_finding hline (by decide) (by decide) (by decide) (by decide)
  | leak =>
      exact publishable_one_line_finding hline (by decide) (by decide) (leak_message_ne line)
        (newline_not_mem_leak_message hline)

theorem publishable_report (hline : newline ∉ line) (h : reportFinding line = some finding) :
    Publishable finding := by
  rw [reportFinding, Option.or_eq_some_iff] at h
  rcases h with h | ⟨_, h⟩
  · exact publishable_bounds hline h
  · exact publishable_one_line hline h

theorem continue_report_location (line : Bytes) (finding : Finding) :
    (continueReport line finding).location =
      match field line (lit "access") with
      | none => finding.location
      | some site => parseSite site := by
  unfold continueReport
  cases field line (lit "access") <;> cases field line (lit "alloc_site") <;> rfl

theorem continue_report_allocation (line : Bytes) (finding : Finding) :
    (continueReport line finding).allocation =
      match field line (lit "alloc_site") with
      | none => finding.allocation
      | some site => parseSite site := by
  unfold continueReport
  cases field line (lit "access") <;> cases field line (lit "alloc_site") <;> rfl

/-- The sites that a bounds report is continued with are sound. -/
theorem publishable_continue (hfinding : Publishable finding) (hline : newline ∉ line)
    (hrule : isVtableRule finding.rule = false) : Publishable (continueReport line finding) := by
  have hsame := continue_report_same line finding
  refine ⟨?_, ?_, ?_, fun location hlocation => ?_, fun location hlocation => ?_, ?_⟩
  · rw [← hsame.rule, ← hsame.cwe, ← hsame.severity]
    exact hfinding.known
  · rw [← hsame.message]
    exact hfinding.message
  · rw [← hsame.message]
    exact hfinding.oneLine
  · rw [continue_report_location] at hlocation
    split at hlocation
    · exact hfinding.location location hlocation
    · exact field_site_sound hline ‹_› hlocation
  · rw [continue_report_allocation] at hlocation
    split at hlocation
    · exact hfinding.allocation location hlocation
    · exact field_site_sound hline ‹_› hlocation
  · rw [← hsame.rule, hrule]
    simp

/-- So are those of a list whose last finding is such a report. -/
theorem publishable_modify_last {findings : List Finding}
    (hfindings : ∀ finding ∈ findings, Publishable finding)
    (hlast : ∀ finding, findings.getLast? = some finding → isVtableRule finding.rule = false)
    (hline : newline ∉ line) :
    (∀ finding ∈ findings.modifyLast (continueReport line), Publishable finding) ∧
      ∀ finding, (findings.modifyLast (continueReport line)).getLast? = some finding →
        isVtableRule finding.rule = false := by
  cases findings using List.reverseRecOn with
  | nil => exact ⟨hfindings, hlast⟩
  | append_singleton init last =>
      have hrule := hlast last List.getLast?_concat
      rw [List.modifyLast_concat]
      refine ⟨fun finding hmem => ?_, fun finding hfinding => ?_⟩
      · rw [List.mem_append, List.mem_singleton] at hmem
        rcases hmem with hmem | rfl
        · exact hfindings finding (List.mem_append_left _ hmem)
        · exact publishable_continue (hfindings last (by simp)) hline hrule
      · rw [List.getLast?_concat, Option.some.injEq] at hfinding
        rw [← hfinding, ← (continue_report_same line last).rule, hrule]

/-! ## The loop -/

/-- What the parser keeps between lines can be published, and the report it continues is not one
of a box. -/
structure Publishes (state : ParserState) : Prop where
  findings : ∀ finding ∈ state.findings, Publishable finding
  last : state.inBoundsReport = true → ∀ finding, state.findings.getLast? = some finding →
    isVtableRule finding.rule = false
  box : ∀ box, state.box = some box → box.Clean

/-- No line undoes it. -/
theorem publishable_step {state : ParserState} (hexclusive : state.Exclusive)
    (hstate : Publishes state) (hline : newline ∉ line) : Publishes (parseLine state line) := by
  cases line_step state line with
  | row hbox _ hnext =>
      rw [hnext]
      refine ⟨hstate.findings, hstate.last, ?_⟩
      rintro _ ⟨⟩
      exact DiagnosticBox.clean_add_row (hstate.box _ hbox) hline
  | closes hbox _ hnext =>
      rw [hnext]
      refine ⟨fun finding hmem => ?_, fun hbounds => ?_, by simp⟩
      · rw [List.mem_append, Option.mem_toList] at hmem
        rcases hmem with hmem | hfound
        · exact hstate.findings finding hmem
        · exact DiagnosticBox.publishable_box (hstate.box _ hbox) hfound
      -- While a box is open, no bounds report goes on.
      · simp [hexclusive (by simp [hbox])] at hbounds
  | opens _ _ hnext =>
      rw [hnext]
      refine ⟨hstate.findings, by simp, ?_⟩
      rintro _ ⟨⟩ row hrow
      cases hrow
  | continues hbox _ hbounds _ hnext =>
      rw [hnext]
      obtain ⟨hfindings, hlast⟩ :=
        publishable_modify_last hstate.findings (hstate.last hbounds) hline
      exact ⟨hfindings, fun _ => hlast, by simp [hbox]⟩
  | examines hbox _ _ hnext =>
      rw [hnext]
      refine ⟨fun finding hmem => ?_, fun hbounds finding hlast => ?_, by simp [hbox]⟩
      · rw [List.mem_append, Option.mem_toList] at hmem
        rcases hmem with hmem | hfound
        · exact hstate.findings finding hmem
        · exact publishable_report hline hfound
      · obtain ⟨found, hfound⟩ := Option.isSome_iff_exists.mp hbounds
        have hreport : reportFinding line = some found := by
          rw [reportFinding, hfound, Option.some_or]
        rw [hreport, Option.toList_some, List.getLast?_concat, Option.some.injEq] at hlast
        rw [← hlast]
        exact line_rule_not_vtable (report_finding_rule hreport)

theorem publishable_lines {state : ParserState} (hexclusive : state.Exclusive)
    (hstate : Publishes state) {lines : List Bytes} (hlines : ∀ line ∈ lines, newline ∉ line) :
    Publishes (parseLines state lines) := by
  induction lines generalizing state with
  | nil => exact hstate
  | cons line lines ih =>
      rw [parse_lines_cons]
      exact ih (parse_line_exclusive hexclusive line)
        (publishable_step hexclusive hstate (hlines line List.mem_cons_self))
        fun other hmem => hlines other (List.mem_cons_of_mem line hmem)

/-- Every finding of an output is publishable. -/
theorem publishable_findings (output : Bytes) :
    ∀ finding ∈ parseFindings output, Publishable finding := by
  have hstart : Publishes {} := ⟨by simp, by simp, by simp⟩
  exact (publishable_lines (by simp [ParserState.Exclusive]) hstart
    fun line hline => ListSplit.not_mem_of_mem_lines hline).findings

/-! ## Publication -/

/-- The result of a finding in the SARIF log has a confidence, and every location in it a line. -/
structure SoundResult (result : Json) : Prop where
  confidence : ∃ confidence ∈ [lit "high", lit "medium", lit "low"],
    Sarif.confidence result = some (.string confidence)
  startLine : ∀ location ∈ Sarif.locations result, ∃ line : Nat, 1 ≤ line ∧
    Sarif.startLine location = some (.number line)

/-- A documented rule is described. -/
theorem described_of_documented {rule cwe : Bytes} {severity : Severity}
    (h : (rule, cwe, severity) ∈ documented) :
    ∃ described, describeRule rule = some described ∧
      described.confidence ∈ [lit "high", lit "medium", lit "low"] := by
  have hall : ∀ entry ∈ documented, (describeRule entry.1).any
      (·.confidence ∈ [lit "high", lit "medium", lit "low"]) = true := by decide
  obtain ⟨described, hdescribed, hconfidence⟩ := (Option.any_eq_true _ _).mp (hall _ h)
  exact ⟨described, hdescribed, of_decide_eq_true hconfidence⟩

/-- The result of a publishable finding is sound. -/
theorem sound_result (h : Publishable finding) : SoundResult (.object (Sarif.result finding)) := by
  obtain ⟨described, hdescribed, hconfidence⟩ := described_of_documented h.known
  refine ⟨⟨_, hconfidence, Sarif.confidence_result hdescribed⟩, fun location hmem => ?_⟩
  rw [Sarif.locations_result, List.mem_append, List.mem_map, List.mem_map] at hmem
  rcases hmem with ⟨site, hsite, rfl⟩ | ⟨site, hsite, rfl⟩
  · exact ⟨site.line, (h.location site (Option.mem_toList.mp hsite)).line,
      Sarif.start_line_location site⟩
  · exact ⟨site.line, (h.allocation site (Option.mem_toList.mp hsite)).line,
      Sarif.start_line_allocated site⟩

/-- The text of a publishable finding is put together from pieces of lines. -/
theorem one_line_of_publishable (h : Publishable finding) : OneLine finding := by
  have hall : ∀ entry ∈ documented, newline ∉ entry.1 ∧ newline ∉ entry.2.1 := by decide
  obtain ⟨hrule, hcwe⟩ := hall _ h.known
  exact ⟨hrule, hcwe, h.oneLine, fun site hsite => (h.location site hsite).oneLine,
    fun site hsite => (h.allocation site hsite).oneLine⟩

/-- The findings can be published: each is described and documented and leads to its places, its
SARIF result has a confidence and its lines, and the text summary has one line for it and at most a
note below. -/
structure Published (findings : List Finding) : Prop where
  described : ∀ finding ∈ findings, ∃ described, describeRule finding.rule = some described
  publishable : ∀ finding ∈ findings, Publishable finding
  sarif : ∀ result ∈ Sarif.results (writeSarif findings), SoundResult result
  text : linesOf (printFindings findings (lit "  ")) =
    findings.flatMap fun finding =>
      findingLine (lit "  ") finding :: (noteLine (lit "  ") finding).toList

/-- Whatever a program prints, the findings in it can be published. -/
theorem findings_published (output : Bytes) : Published (parseFindings output) := by
  have hpublishable := publishable_findings output
  refine ⟨fun finding hmem => ?_, hpublishable, fun result hresult => ?_, ?_⟩
  · obtain ⟨described, hdescribed, _⟩ :=
      described_of_documented (hpublishable finding hmem).known
    exact ⟨described, hdescribed⟩
  · rw [Sarif.results_write_sarif, List.mem_map] at hresult
    obtain ⟨finding, hmem, rfl⟩ := hresult
    exact sound_result (hpublishable finding hmem)
  · exact lines_print_findings (by decide) fun finding hmem =>
      one_line_of_publishable (hpublishable finding hmem)

end RuntimeAnalyzer
