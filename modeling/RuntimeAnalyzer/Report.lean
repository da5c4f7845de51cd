import RuntimeAnalyzer.Lib.Decimal
import RuntimeAnalyzer.Types

/-!
# The findings in the text summary

What `PrintFindings` writes: a line for each finding in the way of a compiler, and a note on the
allocation below it.
-/

namespace RuntimeAnalyzer

/-- What `PrintLocation` writes. -/
def printLocation (location : SourceLocation) : Bytes :=
  location.file ++ lit ":" ++ Decimal.render location.line ++
    (if location.column ≠ 0 then lit ":" ++ Decimal.render location.column else []) ++ lit ": "

/-- What the loop body of `PrintFindings` writes. -/
def printFinding (indent : Bytes) (finding : Finding) : Bytes :=
  indent ++ (finding.location.map printLocation).getD [] ++
    (if finding.severity = .error then lit "error: " else lit "warning: ") ++ finding.message ++
    lit " [" ++ finding.rule ++ lit ", " ++ finding.cwe ++ lit "]\n" ++
    match finding.allocation with
    | none => []
    | some site => indent ++ lit "  " ++ printLocation site ++ lit "note: allocated here\n"

/-- What `PrintFindings` writes. -/
def printFindings (findings : List Finding) (indent : Bytes) : Bytes :=
  findings.flatMap (printFinding indent)

/-! ## Lines -/

/-- The line of a finding. -/
def findingLine (indent : Bytes) (finding : Finding) : Bytes :=
  indent ++ (finding.location.map printLocation).getD [] ++
    (if finding.severity = .error then lit "error: " else lit "warning: ") ++ finding.message ++
    lit " [" ++ finding.rule ++ lit ", " ++ finding.cwe ++ lit "]"

/-- The note below it, for a finding with an allocation. -/
def noteLine (indent : Bytes) (finding : Finding) : Option Bytes :=
  finding.allocation.map fun site =>
    indent ++ lit "  " ++ printLocation site ++ lit "note: allocated here"

/-- A finding's lines: its own, and the note if there is one. -/
def findingLines (indent : Bytes) (finding : Finding) : List Bytes :=
  findingLine indent finding :: (noteLine indent finding).toList

/-- The text of the findings is their lines, each ended by a newline. -/
theorem print_findings_eq (findings : List Finding) (indent : Bytes) :
    printFindings findings indent =
      (findings.flatMap (findingLines indent)).flatMap (· ++ [newline]) := by
  have hend : lit "]\n" = lit "]" ++ [newline] := rfl
  have hnote : lit "note: allocated here\n" = lit "note: allocated here" ++ [newline] := rfl
  rw [List.flatMap_assoc]
  refine List.flatMap_congr fun finding _ => ?_
  unfold printFinding findingLines findingLine noteLine
  cases finding.allocation <;> simp [hend, hnote]

/-- Nothing that the text of a finding is put together from has a newline in it. -/
structure OneLine (finding : Finding) : Prop where
  rule : newline ∉ finding.rule
  cwe : newline ∉ finding.cwe
  message : newline ∉ finding.message
  location : ∀ site, finding.location = some site → newline ∉ site.file
  allocation : ∀ site, finding.allocation = some site → newline ∉ site.file

theorem newline_not_mem_location {site : SourceLocation} (h : newline ∉ site.file) :
    newline ∉ printLocation site := by
  have hline := Decimal.not_mem_render site.line (show Decimal.isDigit newline = false by decide)
  have hcolumn :=
    Decimal.not_mem_render site.column (show Decimal.isDigit newline = false by decide)
  have hcolon : newline ∉ lit ":" := by decide
  have hend : newline ∉ lit ": " := by decide
  unfold printLocation
  split <;> simp only [List.mem_append, not_or] <;> tauto

/-- The lines of such a finding are lines. -/
theorem newline_not_mem_finding_lines {indent : Bytes} (hindent : newline ∉ indent)
    {finding : Finding} (h : OneLine finding) :
    ∀ line ∈ findingLines indent finding, newline ∉ line := by
  have hplace : ∀ {site : Option SourceLocation},
      (∀ known, site = some known → newline ∉ known.file) →
      newline ∉ (site.map printLocation).getD [] := by
    intro site hsite
    cases site with
    | none => exact List.not_mem_nil
    | some known => exact newline_not_mem_location (hsite known rfl)
  have hlevel : newline ∉ if finding.severity = .error then lit "error: " else lit "warning: " := by
    split <;> decide
  intro line hline
  rw [findingLines, List.mem_cons, Option.mem_toList] at hline
  rcases hline with rfl | hline
  · have hopen : newline ∉ lit " [" := by decide
    have hcomma : newline ∉ lit ", " := by decide
    have hclose : newline ∉ lit "]" := by decide
    unfold findingLine
    simp only [List.mem_append, not_or]
    exact ⟨⟨⟨⟨⟨⟨⟨⟨hindent, hplace h.location⟩, hlevel⟩, h.message⟩, hopen⟩, h.rule⟩, hcomma⟩,
      h.cwe⟩, hclose⟩
  · obtain ⟨site, hsite, rfl⟩ := Option.map_eq_some_iff.mp hline
    have hdeeper : newline ∉ lit "  " := by decide
    have hnote : newline ∉ lit "note: allocated here" := by decide
    simp only [List.mem_append, not_or]
    exact ⟨⟨⟨hindent, hdeeper⟩, newline_not_mem_location (h.allocation site hsite)⟩, hnote⟩

/-- The text of findings without newlines has these lines. -/
theorem lines_print_findings {indent : Bytes} (hindent : newline ∉ indent)
    {findings : List Finding} (h : ∀ finding ∈ findings, OneLine finding) :
    linesOf (printFindings findings indent) = findings.flatMap (findingLines indent) := by
  rw [print_findings_eq, linesOf, ListSplit.lines_flatMap]
  intro line hline
  obtain ⟨finding, hfinding, hmem⟩ := List.mem_flatMap.mp hline
  exact newline_not_mem_finding_lines hindent (h finding hfinding) line hmem

end RuntimeAnalyzer
