import RuntimeAnalyzer.Findings.Publishable
import RuntimeAnalyzer.Findings.Readings

/-!
# The texts that sites are read off

Each place of a finding was read off a text that does not start with a space: the value of a field,
or of a row of a box. `read_off_findings` follows this through the lines of an output.
-/

namespace RuntimeAnalyzer

/-- The place was read off a text that does not start with a space. -/
def ReadOff (place : SourceLocation) : Prop :=
  ∃ text, text.head? ≠ some space ∧ parseSite text = some place

/-- What a place has from the text that it was read off. -/
structure FromText (place : SourceLocation) : Prop where
  head : place.file.head? ≠ some space
  lineFits : place.line < UInt32.size
  columnFits : place.column < UInt32.size

theorem take_number_lt {text rest : Bytes} {number : Nat}
    (h : takeNumber text = some (rest, number)) : number < UInt32.size := by
  obtain ⟨digits, hcount, -, rfl⟩ := take_number_eq_some_iff.mp h
  exact hcount.fits

/-- The numbers of a site that is read fit in 32 bits. -/
theorem parse_site_lt {text : Bytes} {place : SourceLocation} (h : parseSite text = some place) :
    place.line < UInt32.size ∧ place.column < UInt32.size := by
  have hchecked : ∀ {read : SourceLocation},
      (if read.file = [] ∨ read.line = 0 then none else some read) = some place →
      read = place := by
    intro read hread
    split at hread
    · cases hread
    · exact Option.some.inj hread
  unfold parseSite at h
  cases hlast : takeNumber text with
  | none => simp [hlast] at h
  | some last =>
      rw [hlast] at h
      cases hfirst : takeNumber last.1 with
      | none =>
          rw [← @hchecked ⟨last.1, last.2, 0⟩ (by simpa only [hfirst] using h)]
          exact ⟨take_number_lt hlast, Nat.pos_of_ne_zero (by decide)⟩
      | some first =>
          rw [← @hchecked ⟨first.1, first.2, last.2⟩ (by simpa only [hfirst] using h)]
          exact ⟨take_number_lt hfirst, take_number_lt hlast⟩

theorem from_text_of_read_off {place : SourceLocation} (h : ReadOff place) : FromText place := by
  obtain ⟨text, hhead, hparse⟩ := h
  obtain ⟨⟨rest, rfl⟩, hfile, -⟩ := parse_site_file hparse
  obtain ⟨hline, hcolumn⟩ := parse_site_lt hparse
  refine ⟨fun hspace => hhead ?_, hline, hcolumn⟩
  rw [List.head?_append_of_ne_nil _ hfile, hspace]

/-- The places of the finding were read off such texts. -/
structure PlacesReadOff (finding : Finding) : Prop where
  location : ∀ place, finding.location = some place → ReadOff place
  allocation : ∀ place, finding.allocation = some place → ReadOff place

variable {line text : Bytes} {finding : Finding}

/-! ## Lines -/

/-- The site in a field. -/
theorem read_off_field {key : Bytes} {place : SourceLocation} (hfield : field line key = some text)
    (hparse : parseSite text = some place) : ReadOff place :=
  ⟨text, fun hhead => space_not_mem_field hfield (List.mem_of_mem_head? hhead), hparse⟩

theorem read_off_one_line (line rule cwe : Bytes) (severity : Severity) (message : Bytes) :
    PlacesReadOff (oneLineFinding line rule cwe severity message) := by
  constructor <;>
    · intro place hplace
      obtain ⟨text, hfield, hparse⟩ := Option.bind_eq_some_iff.mp hplace
      exact read_off_field hfield hparse

theorem read_off_report (h : reportFinding line = some finding) : PlacesReadOff finding := by
  rw [reportFinding, Option.or_eq_some_iff] at h
  rcases h with h | ⟨-, h⟩
  · cases bounds_report h
    exact ⟨by simp, by simp⟩
  · cases one_line_report h <;> exact read_off_one_line ..

theorem read_off_continue (h : PlacesReadOff finding) (line : Bytes) :
    PlacesReadOff (continueReport line finding) := by
  constructor
  · intro place hplace
    rw [continue_report_location] at hplace
    split at hplace
    · exact h.location place hplace
    · exact read_off_field ‹_› hplace
  · intro place hplace
    rw [continue_report_allocation] at hplace
    split at hplace
    · exact h.allocation place hplace
    · exact read_off_field ‹_› hplace

/-! ## Boxes -/

namespace DiagnosticBox

/-- No value of the box starts with a space. -/
def Unindented (box : DiagnosticBox) : Prop :=
  ∀ row ∈ box.rows, row.2.head? ≠ some space

variable {box : DiagnosticBox}

theorem trim_head (text : Bytes) : (trim text).head? ≠ some space := by
  intro hhead
  have hdropped : (text.dropWhile (· = space)).head? = some space := by
    obtain ⟨rest, hrest⟩ := List.head?_eq_some_iff.mp hhead
    obtain ⟨more, hmore⟩ := List.rdropWhile_prefix (· = space) (text.dropWhile (· = space))
    rw [trim] at hrest
    rw [← hmore, hrest]
    rfl
  have hnot := List.head?_dropWhile_not (· = space) text
  rw [hdropped] at hnot
  simp at hnot

theorem unindented_add_text (h : box.Unindented) (text : Bytes) :
    (box.addText text).Unindented := by
  unfold addText
  split
  · exact h
  · rename_i pos hcolon
    have hvalue := trim_head (text.drop (pos + 1))
    dsimp only
    split
    -- The value goes on in the last row, and starts there only if that was empty.
    · rename_i hcontinues
      intro row hrow
      unfold appendToLast at hrow
      cases hrows : box.rows using List.reverseRecOn with
      | nil => exact absurd hrows hcontinues.2
      | append_singleton rows last =>
          rw [hrows, List.modifyLast_concat, List.mem_append, List.mem_singleton] at hrow
          rcases hrow with hrow | rfl
          · exact h row (by simp [hrows, hrow])
          · have hlast := h last (by simp [hrows])
            dsimp only
            cases hempty : last.2 with
            | nil => exact hvalue
            | cons byte rest => rwa [hempty] at hlast
    · intro row hrow
      rw [List.mem_append, List.mem_singleton] at hrow
      rcases hrow with hrow | rfl
      · exact h row hrow
      · exact hvalue

theorem unindented_add_row (h : box.Unindented) (line : Bytes) : (box.addRow line).Unindented := by
  unfold addRow
  split
  · split
    · exact h
    · exact unindented_add_text h _
  · exact h

theorem read_off_rows {reading : Reading}
    (h : ∀ place, reading.location = some place → ReadOff place)
    {rows : List (Bytes × Bytes)} (hrows : ∀ row ∈ rows, row.2.head? ≠ some space) :
    ∀ place, (rows.foldl readRow reading).location = some place → ReadOff place := by
  induction rows generalizing reading with
  | nil => exact h
  | cons row rows ih =>
      refine ih ?_ fun other hmem => hrows other (List.mem_cons_of_mem row hmem)
      unfold readRow
      split
      · exact fun place hparse => ⟨row.2, hrows row List.mem_cons_self, hparse⟩
      · split <;> exact h

theorem read_off_box (hbox : box.Unindented) (h : box.toFinding = some finding) :
    PlacesReadOff finding := by
  unfold toFinding at h
  dsimp only at h
  split at h
  · cases h
  · cases h
    exact ⟨read_off_rows (by simp) hbox, by simp⟩

end DiagnosticBox

/-! ## The loop -/

/-- What the parser keeps between lines was read off such texts. -/
structure KeepsReadOff (state : ParserState) : Prop where
  findings : ∀ finding ∈ state.findings, PlacesReadOff finding
  box : ∀ box, state.box = some box → box.Unindented

theorem read_off_append {findings : List Finding} {found : Option Finding}
    (h : ∀ finding ∈ findings, PlacesReadOff finding)
    (hfound : ∀ finding, found = some finding → PlacesReadOff finding) :
    ∀ finding ∈ findings ++ found.toList, PlacesReadOff finding := by
  intro finding hmem
  rw [List.mem_append, Option.mem_toList] at hmem
  rcases hmem with hmem | hmem
  · exact h finding hmem
  · exact hfound finding hmem

theorem read_off_step {state : ParserState} (h : KeepsReadOff state) (line : Bytes) :
    KeepsReadOff (parseLine state line) := by
  cases line_step state line with
  | row hbox _ hnext =>
      rw [hnext]
      refine ⟨h.findings, ?_⟩
      rintro _ ⟨⟩
      exact DiagnosticBox.unindented_add_row (h.box _ hbox) line
  | closes hbox _ hnext =>
      rw [hnext]
      refine ⟨read_off_append h.findings fun finding hfound => ?_, by simp⟩
      exact DiagnosticBox.read_off_box (h.box _ hbox) hfound
  | opens _ _ hnext =>
      rw [hnext]
      refine ⟨h.findings, ?_⟩
      rintro _ ⟨⟩ row hrow
      cases hrow
  | continues hbox _ _ _ hnext =>
      rw [hnext]
      refine ⟨fun finding hmem => ?_, by simp [hbox]⟩
      cases hfindings : state.findings using List.reverseRecOn with
      | nil =>
          rw [hfindings] at hmem
          cases hmem
      | append_singleton init last =>
          simp only [hfindings, List.modifyLast_concat, List.mem_append, List.mem_singleton] at hmem
          rcases hmem with hmem | rfl
          · exact h.findings finding (by simp [hfindings, hmem])
          · exact read_off_continue (h.findings last (by simp [hfindings])) line
  | examines hbox _ _ hnext =>
      rw [hnext]
      exact ⟨read_off_append h.findings fun finding => read_off_report, by simp [hbox]⟩

/-- The places of every finding of an output were read off such texts. -/
theorem read_off_findings (output : Bytes) :
    ∀ finding ∈ parseFindings output, PlacesReadOff finding := by
  have hlines : ∀ (lines : List Bytes) (state : ParserState), KeepsReadOff state →
      KeepsReadOff (parseLines state lines) := by
    intro lines
    induction lines with
    | nil => exact fun _ h => h
    | cons line lines ih =>
        intro state h
        rw [parse_lines_cons]
        exact ih _ (read_off_step h line)
  exact (hlines _ {} ⟨by simp, by simp⟩).findings

end RuntimeAnalyzer
