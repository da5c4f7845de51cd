import RuntimeAnalyzer.Findings.Cut
import RuntimeAnalyzer.Findings.Publishable
import RuntimeAnalyzer.Findings.RoundTrip

/-!
# Sites with any path

The reports on lines in the runtime's layout, with the path of each site left open. A field ends at
the first space, so no site that is read off a line has a space in its file
(`unspaced_of_parse`), and a report keeps its sites exactly when none of their paths has
one (`keeps_sites_iff`).
-/

namespace RuntimeAnalyzer

/-! ## Reports with places -/

/-- A place as the runtime writes it, `file:line:column`, whatever the path. -/
structure Place where
  file : Bytes
  line : Nat
  column : Nat
  file_ne : file ≠ []
  no_newline : newline ∉ file
  line_pos : 1 ≤ line
  line_lt : line < UInt32.size
  column_lt : column < UInt32.size

namespace Place

def text (place : Place) : Bytes :=
  place.file ++ colon :: Decimal.render place.line ++ colon :: Decimal.render place.column

def location (place : Place) : SourceLocation :=
  ⟨place.file, place.line, place.column⟩

/-- A place without a space in its path is a site of a log. -/
def toSite (place : Place) (h : space ∉ place.file) : Site :=
  .known
    { file := place.file
      line := place.line
      column := some place.column
      file_ne := place.file_ne
      no_space := h
      no_newline := place.no_newline
      line_pos := place.line_pos
      line_lt := place.line_lt
      column_lt := by simpa using place.column_lt
      not_number := by simp }

end Place

/-- What stands in a site field. -/
def placeText : Option Place → Bytes
  | none => lit "<unknown>"
  | some place => place.text

/-- A report with a place, known or not, in each of its site fields. The other words are those of
the report it holds. -/
inductive PlacedReport
  | bounds (report : BoundsReport) (access alloc : Option Place)
  | doubleFree (free : DoubleFree) (site alloc : Option Place)
  | leak (block : Leak) (alloc : Option Place)

namespace PlacedReport

def lines : PlacedReport → List Bytes
  | bounds report access alloc => report.linesAt (placeText access) (placeText alloc)
  | doubleFree free site alloc =>
      [unwords (logPrefix free.pid free.level ++
        [lit "tracing-free", assign (lit "ptr") free.pointer.bytes, lit "(double", lit "free)",
          assign (lit "site") (placeText site), assign (lit "alloc_site") (placeText alloc)])]
  | leak block alloc =>
      [unwords (logPrefix block.pid block.level ++
        [lit "ct:", lit "leak", assign (lit "ptr") block.pointer.bytes,
          assign (lit "size") (Decimal.render block.size),
          assign (lit "alloc_site") (placeText alloc)])]

/-- The report as a text, each line ended by a newline. -/
def text (report : PlacedReport) : Bytes :=
  report.lines.flatMap (· ++ [newline])

/-- The place of the faulting access. -/
def access : PlacedReport → Option Place
  | bounds _ access _ => access
  | doubleFree _ site _ => site
  | leak _ _ => none

/-- The place of the allocation. -/
def alloc : PlacedReport → Option Place
  | bounds _ _ alloc => alloc
  | doubleFree _ _ alloc => alloc
  | leak _ alloc => alloc

end PlacedReport

/-- Wherever a report stands after complete lines and outside of a box, its finding has exactly the
places of the report. -/
def KeepsSites (report : PlacedReport) : Prop :=
  ∀ before, EndsLine before → modeAfter (linesOf before) ≠ .box →
    ∃ finding, parseFindings (before ++ report.text) = parseFindings before ++ [finding] ∧
      finding.location = report.access.map Place.location ∧
      finding.allocation = report.alloc.map Place.location

/-! ## Lines -/

theorem newline_not_mem_place_text (place : Option Place) : newline ∉ placeText place := by
  cases place with
  | none => decide
  | some place =>
      have hrender : ∀ n, newline ∉ Decimal.render n := fun n =>
        Decimal.not_mem_render n (by decide)
      have hcolon : newline ≠ colon := by decide
      simp [placeText, Place.text, place.no_newline, hrender, hcolon]

theorem newline_not_mem_assign {key value : Bytes} (hkey : newline ∉ key)
    (hvalue : newline ∉ value) : newline ∉ assign key value := by
  have hequals : newline ≠ equals := by decide
  simp [assign, hkey, hvalue, hequals]

theorem newline_not_mem_token (key : Bytes) (token : Token) (hkey : newline ∉ key) :
    newline ∉ assign key token.bytes :=
  newline_not_mem_assign hkey token.no_newline

/-- The lines of a report are lines. -/
theorem newline_not_mem_report {report : PlacedReport} {line : Bytes} (h : line ∈ report.lines) :
    newline ∉ line := by
  have hnumber : ∀ key n, newline ∉ key → newline ∉ assign key (Decimal.render n) :=
    fun key n hkey => newline_not_mem_assign hkey (Decimal.not_mem_render n (by decide))
  have hplace : ∀ key place, newline ∉ key → newline ∉ assign key (placeText place) :=
    fun key place hkey => newline_not_mem_assign hkey (newline_not_mem_place_text place)
  have hbegins : ∀ pid level, ∀ word ∈ logPrefix pid level, newline ∉ word :=
    fun _ _ word hword => (log_prefix_plain hword).2
  cases report with
  | bounds report access alloc =>
      simp only [PlacedReport.lines, BoundsReport.linesAt, List.mem_cons, List.not_mem_nil,
        or_false] at h
      rcases h with rfl | rfl | rfl
      · exact @newline_not_mem_item (.bounds report) _ (by simp [Item.lines, BoundsReport.lines])
      · refine newline_not_mem_unwords ?_
        simp only [BoundsReport.accessWordsAt, List.forall_mem_cons]
        exact ⟨by simp, by simp, hplace _ _ (by decide), newline_not_mem_token _ _ (by decide),
          newline_not_mem_token _ _ (by decide), by simp⟩
      · refine newline_not_mem_unwords ?_
        simp only [BoundsReport.allocWordsAt, List.forall_mem_cons]
        exact ⟨by simp, by simp, hnumber _ _ (by decide), hplace _ _ (by decide),
          newline_not_mem_token _ _ (by decide), by simp⟩
  | doubleFree free site alloc =>
      rw [List.mem_singleton.mp h]
      refine newline_not_mem_unwords ?_
      simp only [List.forall_mem_append, List.forall_mem_cons]
      exact ⟨hbegins _ _, by decide, newline_not_mem_token _ _ (by decide), by decide, by decide,
        hplace _ _ (by decide), hplace _ _ (by decide), by simp⟩
  | leak block alloc =>
      rw [List.mem_singleton.mp h]
      refine newline_not_mem_unwords ?_
      simp only [List.forall_mem_append, List.forall_mem_cons]
      exact ⟨hbegins _ _, by decide, by decide, newline_not_mem_token _ _ (by decide),
        hnumber _ _ (by decide), hplace _ _ (by decide), by simp⟩

/-- The parser reads the report from the state it is in. -/
theorem parse_findings_report {before : Bytes} (hends : EndsLine before) (report : PlacedReport) :
    parseFindings (before ++ report.text) =
      (parseLines (parseLines {} (linesOf before)) report.lines).findings := by
  have hlines : linesOf report.text = report.lines :=
    ListSplit.lines_flatMap fun _ => newline_not_mem_report
  rw [parse_findings_append hends, hlines]

/-! ## Sites that are read off a line -/

variable {line : Bytes} {finding : Finding} {location : SourceLocation}

/-- A site that is read off a field has no space in its file. -/
theorem space_not_mem_field_site {key site : Bytes} (hfield : field line key = some site)
    (hsite : parseSite site = some location) : space ∉ location.file :=
  fun hmem => space_not_mem_field hfield ((parse_site_file hsite).1.subset hmem)

/-- No site of the finding has a space in its file. -/
def Unspaced (finding : Finding) : Prop :=
  ∀ location, finding.location = some location ∨ finding.allocation = some location →
    space ∉ location.file

theorem unspaced_one_line (line rule cwe : Bytes) (severity : Severity) (message : Bytes) :
    Unspaced (oneLineFinding line rule cwe severity message) := by
  intro location hsite
  rcases hsite with h | h
  · obtain ⟨site, hfield, hparse⟩ := Option.bind_eq_some_iff.mp h
    exact space_not_mem_field_site hfield hparse
  · obtain ⟨site, hfield, hparse⟩ := Option.bind_eq_some_iff.mp h
    exact space_not_mem_field_site hfield hparse

/-- A line that starts a report gives it no site with a space. -/
theorem unspaced_report (h : reportFinding line = some finding) : Unspaced finding := by
  rw [reportFinding, Option.or_eq_some_iff] at h
  rcases h with h | ⟨_, h⟩
  -- A heading gives no site at all.
  · obtain ⟨bounds, _, hbounds⟩ := List.exists_of_findSome?_eq_some h
    rw [boundsFindingOf] at hbounds
    split at hbounds
    · cases hbounds
    · cases hbounds
      simp [Unspaced]
  · rw [oneLineReport] at h
    split at h
    · cases h
      exact unspaced_one_line _ _ _ _ _
    · split at h
      · cases h
        exact unspaced_one_line _ _ _ _ _
      · cases h

/-- Nor does a line that continues one. -/
theorem unspaced_continue (h : Unspaced finding) (line : Bytes) :
    Unspaced (continueReport line finding) := by
  intro location hsite
  rw [continue_report_location, continue_report_allocation] at hsite
  rcases hsite with hsite | hsite
  · split at hsite
    · exact h location (.inl hsite)
    · exact space_not_mem_field_site ‹_› hsite
  · split at hsite
    · exact h location (.inr hsite)
    · exact space_not_mem_field_site ‹_› hsite

/-! ## Reports that keep their sites -/

/-- No path of the report has a space in it. -/
def PlacedReport.Unspaced (report : PlacedReport) : Prop :=
  ∀ place, report.access = some place ∨ report.alloc = some place → space ∉ place.file

/-- A place without a space is written as a site of a log. -/
theorem place_text_site (place : Option Place)
    (h : ∀ known, place = some known → space ∉ known.file) :
    ∃ site : Site, placeText place = site.text ∧ site.location = place.map Place.location := by
  cases place with
  | none => exact ⟨.unknown, rfl, rfl⟩
  | some place =>
      refine ⟨place.toSite (h place rfl), ?_, rfl⟩
      simp [placeText, Place.text, Place.toSite, Site.text, Site.columnText]

/-- A report without spaces in its paths is read as it is written. -/
theorem parse_unspaced {report : PlacedReport} (h : report.Unspaced) {state : ParserState}
    (hbox : state.box = none) :
    ∃ finding, (parseLines state report.lines).findings = state.findings ++ [finding] ∧
      finding.location = report.access.map Place.location ∧
      finding.allocation = report.alloc.map Place.location := by
  obtain ⟨access, haccess, haccessSite⟩ :=
    place_text_site report.access fun place hplace => h place (.inl hplace)
  obtain ⟨alloc, halloc, hallocSite⟩ :=
    place_text_site report.alloc fun place hplace => h place (.inr hplace)
  rw [← haccessSite, ← hallocSite]
  cases report with
  | bounds report accessPlace allocPlace =>
      let sited : BoundsReport := { report with accessSite := access, allocSite := alloc }
      have hlines : (PlacedReport.bounds report accessPlace allocPlace).lines = sited.lines := by
        rw [PlacedReport.lines, show placeText accessPlace = access.text from haccess,
          show placeText allocPlace = alloc.text from halloc]
        rfl
      refine ⟨sited.finding, ?_, rfl, rfl⟩
      rw [hlines]
      exact congrArg ParserState.findings (sited.parse hbox)
  | doubleFree free sitePlace allocPlace =>
      let sited : DoubleFree := { free with site := access, allocSite := alloc }
      have hlines : (PlacedReport.doubleFree free sitePlace allocPlace).lines =
          [unwords sited.words] := by
        rw [PlacedReport.lines, show placeText sitePlace = access.text from haccess,
          show placeText allocPlace = alloc.text from halloc]
        rfl
      refine ⟨sited.finding, ?_, rfl, rfl⟩
      rw [hlines]
      exact congrArg ParserState.findings (sited.parse hbox)
  | leak block allocPlace =>
      let sited : Leak := { block with allocSite := alloc }
      have hlines : (PlacedReport.leak block allocPlace).lines = [unwords sited.words] := by
        rw [PlacedReport.lines, show placeText allocPlace = alloc.text from halloc]
        rfl
      refine ⟨sited.finding, ?_, ?_, rfl⟩
      · rw [hlines]
        exact congrArg ParserState.findings (sited.parse hbox)
      · rw [haccessSite]
        rfl

/-- What is read of a report alone has no site with a space. -/
theorem unspaced_of_parse {report : PlacedReport} {finding : Finding}
    (h : (parseLines {} report.lines).findings = [finding]) : Unspaced finding := by
  have hone : ∀ line, (parseLines {} [line]).findings = [finding] → Unspaced finding := by
    intro line hline
    rw [parse_lines_cons, parse_lines_nil] at hline
    cases line_step {} line with
    | closes hbox _ _ => cases hbox
    | row hbox _ _ => cases hbox
    | opens _ _ hnext => simp [hnext] at hline
    | continues _ _ hbounds _ _ => cases hbounds
    | examines _ _ _ hnext =>
        refine @unspaced_report line finding ?_
        cases hreport : reportFinding line <;> simp_all
  cases report with
  | bounds report access alloc =>
      rw [PlacedReport.lines, report.parse_at rfl] at h
      have hheading := unspaced_report (show reportFinding report.heading = some report.unplaced by
        rw [reportFinding, report.bounds_finding_heading, Option.some_or])
      obtain rfl := List.singleton_inj.mp h
      exact unspaced_continue (unspaced_continue hheading _) _
  | doubleFree free site alloc => exact hone _ h
  | leak block alloc => exact hone _ h

/-- A report keeps its sites exactly when none of their paths has a space in it. -/
theorem keeps_sites_iff (report : PlacedReport) : KeepsSites report ↔ report.Unspaced := by
  constructor
  · intro h place hplace
    obtain ⟨finding, hparse, haccess, halloc⟩ := h [] (.inl rfl) (by decide)
    rw [parse_findings_report (.inl rfl)] at hparse
    have hunspaced := unspaced_of_parse hparse
    rcases hplace with hplace | hplace
    · exact hunspaced place.location (.inl (by rw [haccess, hplace]; rfl))
    · exact hunspaced place.location (.inr (by rw [halloc, hplace]; rfl))
  · intro h before hends hmode
    rw [parse_findings_report hends]
    refine parse_unspaced h ?_
    rwa [← mode_parse_lines, ne_eq, mode_eq_box_iff, not_not] at hmode

/-- The leak of a file in a directory whose name has a space. -/
def spacedLeak : PlacedReport :=
  .leak
    { pid := 1
      level := .warn
      pointer := ⟨lit "0x1", by decide, by decide, by decide⟩
      size := 16
      allocSite := .unknown }
    (some
      { file := lit "my dir/a.c"
        line := 6
        column := 19
        file_ne := by decide
        no_newline := by decide
        line_pos := by decide
        line_lt := by decide
        column_lt := by decide })

/-- Its allocation is lost. -/
theorem spaced_leak_loses_site :
    spacedLeak.text =
        lit "|1| ==ct== [WARN] ct: leak ptr=0x1 size=16 alloc_site=my dir/a.c:6:19\n" ∧
      ¬ KeepsSites spacedLeak := by
  refine ⟨by decide, fun h => ?_⟩
  obtain ⟨finding, hparse, -, halloc⟩ := h [] (.inl rfl) (by decide)
  have hfindings : (parseFindings spacedLeak.text).map (·.allocation) = [none] := by decide
  have hempty : parseFindings [] = [] := rfl
  rw [List.nil_append, hempty, List.nil_append] at hparse
  rw [hparse, List.map_singleton, halloc] at hfindings
  exact absurd hfindings (by simp [spacedLeak, PlacedReport.alloc])

end RuntimeAnalyzer
