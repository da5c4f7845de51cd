import Mathlib.Data.List.Basic
import RuntimeAnalyzer.Sarif

/-!
# What the SARIF log says

A consumer of the log finds in it what the analyzer found: `readFinding` reads a result back to its
finding, and the list of rules holds each rule once, in the order in which the findings bring them
(`sarif_log_encodes`).
-/

namespace RuntimeAnalyzer

/-! ## Reading the log -/

namespace Json

/-- The text under a key. -/
def textOf (value : Json) (key : Bytes) : Option Bytes :=
  match value.get? key with
  | some (string text) => some text
  | _ => none

/-- The count under a key. -/
def countOf (value : Json) (key : Bytes) : Option Nat :=
  match value.get? key with
  | some (number count) => some count.toNat
  | _ => none

end Json

namespace Sarif

/-- A location of the log; a region without a start column is in column 0. -/
def readLocation (location : Json) : Option SourceLocation := do
  let physical ← location.get? (lit "physicalLocation")
  let artifact ← physical.get? (lit "artifactLocation")
  let region ← physical.get? (lit "region")
  let file ← artifact.textOf (lit "uri")
  let line ← region.countOf (lit "startLine")
  some { file, line, column := (region.countOf (lit "startColumn")).getD 0 }

/-- The severity that a level stands for. -/
def readLevel (level : Bytes) : Option Severity :=
  if level = lit "error" then some .error
  else if level = lit "warning" then some .warning
  else none

/-- A result of the log; one without locations, or without related locations, has none. -/
def readFinding (result : Json) : Option Finding := do
  let rule ← result.textOf (lit "ruleId")
  let cwe ← (← result.get? (lit "properties")).textOf (lit "cwe")
  let severity ← readLevel (← result.textOf (lit "level"))
  let message ← (← result.get? (lit "message")).textOf (lit "text")
  some
    { rule, cwe, severity, message
      location := (result.itemsOf (lit "locations")).head?.bind readLocation
      allocation := (result.itemsOf (lit "relatedLocations")).head?.bind readLocation }

/-- The rules that a run lists. -/
def rulesOfRun (run : Json) : List Json :=
  match (run.get? (lit "tool")).bind (·.get? (lit "driver")) with
  | none => []
  | some driver => driver.itemsOf (lit "rules")

/-- The rules that a log lists. -/
def rules (log : Json) : List Json :=
  (log.itemsOf (lit "runs")).flatMap rulesOfRun

/-- The ids of the rules that a log lists. -/
def ruleIds (log : Json) : List Bytes :=
  (rules log).filterMap (·.textOf (lit "id"))

/-! ## Results -/

theorem read_location (site : SourceLocation) :
    readLocation (.object (location site)) = some site := by
  unfold location
  dsimp only
  split
  · rfl
  · rename_i hcolumn
    have hzero : site.column = 0 := not_not.mp hcolumn
    change some { site with column := 0 } = some site
    rw [← hzero]

/-- The id and the message of an allocation are beside its place. -/
theorem read_location_allocated (site : SourceLocation) :
    readLocation (.object (allocated site)) = some site := by
  have hphysical : Json.get? (.object (allocated site)) (lit "physicalLocation") =
      Json.get? (.object (location site)) (lit "physicalLocation") := rfl
  rw [← read_location site, readLocation, readLocation, hphysical]

theorem read_level (severity : Severity) :
    readLevel (if severity = .error then lit "error" else lit "warning") = some severity := by
  cases severity <;> decide

/-- The members of a result that its finding is read from. -/
structure MembersOf (finding : Finding) (result : Json) : Prop where
  rule : result.textOf (lit "ruleId") = some finding.rule
  level : result.textOf (lit "level") =
    some (if finding.severity = .error then lit "error" else lit "warning")
  message : (result.get? (lit "message")).bind (·.textOf (lit "text")) = some finding.message
  cwe : (result.get? (lit "properties")).bind (·.textOf (lit "cwe")) = some finding.cwe
  locations : result.itemsOf (lit "locations") =
    finding.location.toList.map fun site => .object (location site)
  related : result.itemsOf (lit "relatedLocations") =
    finding.allocation.toList.map fun site => .object (allocated site)

/-- Whatever is left out of a result, the rest stands where it is looked for. -/
theorem result_members (finding : Finding) : MembersOf finding (.object (result finding)) := by
  unfold result
  constructor
  -- Only the properties differ by whether the rule is described.
  case cwe =>
    cases describeRule finding.rule <;> cases finding.location <;> cases finding.allocation <;> rfl
  all_goals cases finding.location <;> cases finding.allocation <;> rfl

/-- A site that is written as one location, or as none, is read back. -/
theorem read_first_location {write : SourceLocation → Json.Object}
    (h : ∀ site, readLocation (.object (write site)) = some site) (site : Option SourceLocation) :
    (site.toList.map fun site => Json.object (write site)).head?.bind readLocation = site := by
  cases site with
  | none => rfl
  | some site =>
      rw [Option.toList_some, List.map_singleton, List.head?_cons, Option.bind_some]
      exact h site

/-- A result is read back to its finding. -/
theorem read_finding (finding : Finding) :
    readFinding (.object (result finding)) = some finding := by
  have hlocation := read_first_location read_location finding.location
  have hallocation := read_first_location read_location_allocated finding.allocation
  have hmembers := result_members finding
  obtain ⟨properties, hproperties, hcwe⟩ := Option.bind_eq_some_iff.mp hmembers.cwe
  obtain ⟨message, hobject, hmessage⟩ := Option.bind_eq_some_iff.mp hmembers.message
  simp only [readFinding, hmembers.rule, hproperties, hcwe, hmembers.level, read_level, hobject,
    hmessage, hmembers.locations, hmembers.related, hlocation, hallocation, Option.bind_eq_bind,
    Option.bind_some]

/-! ## Rules -/

/-- A rule is listed under its id. -/
theorem text_of_id (id : Bytes) : Json.textOf (.object (rule id)) (lit "id") = some id := by
  unfold rule
  cases describeRule id <;> rfl

/-- A rule that is listed already is not listed again. -/
theorem erase_dups_append_of_mem {α : Type} [BEq α] [LawfulBEq α] {seen : List α} {item : α}
    (h : item ∈ seen) : (seen ++ [item]).eraseDups = seen.eraseDups := by
  have hremoved : [item].removeAll seen = [] := by simp [List.removeAll, h]
  rw [List.eraseDups_append, hremoved, List.eraseDups_nil, List.append_nil]

theorem erase_dups_append_of_not_mem {α : Type} [BEq α] [LawfulBEq α] {seen : List α} {item : α}
    (h : item ∉ seen) : (seen ++ [item]).eraseDups = seen.eraseDups ++ [item] := by
  have hkept : [item].removeAll seen = [item] := by simp [List.removeAll, h]
  rw [List.eraseDups_append, hkept, List.eraseDups_cons, List.filter_nil, List.eraseDups_nil]

/-- What is left without repetitions is in the order of its first occurrences. -/
theorem pairwise_idx_of_erase_dups {α : Type} [BEq α] [LawfulBEq α] (items : List α) :
    items.eraseDups.Pairwise fun first second => items.idxOf first < items.idxOf second := by
  induction items using List.reverseRecOn with
  | nil => exact .nil
  | append_singleton items item ih =>
      have hbefore : items.eraseDups.Pairwise fun first second =>
          (items ++ [item]).idxOf first < (items ++ [item]).idxOf second := by
        refine ih.imp_of_mem fun {first second} hfirst hsecond hlt => ?_
        rw [List.idxOf_append_of_mem (List.mem_eraseDups.mp hfirst),
          List.idxOf_append_of_mem (List.mem_eraseDups.mp hsecond)]
        exact hlt
      by_cases hmem : item ∈ items
      · rw [erase_dups_append_of_mem hmem]
        exact hbefore
      · rw [erase_dups_append_of_not_mem hmem]
        refine List.pairwise_append.mpr ⟨hbefore, List.pairwise_singleton _ _, ?_⟩
        intro first hfirst second hsecond
        have hfirst := List.mem_eraseDups.mp hfirst
        rw [List.mem_singleton.mp hsecond, List.idxOf_append_of_mem hfirst,
          List.idxOf_append_of_notMem hmem, List.idxOf_cons_self]
        exact List.idxOf_lt_length_of_mem hfirst

/-- The rules are listed as far as the findings have been looked at. -/
structure ListsRules (listing : Listing) (seen : List Bytes) : Prop where
  rules : listing.rules = seen.eraseDups.map fun id => .object (rule id)
  listed : ∀ id, id ∈ listing.listed ↔ id ∈ seen

theorem ListsRules.step {listing : Listing} {seen : List Bytes} (h : ListsRules listing seen)
    (finding : Finding) : ListsRules (list listing finding) (seen ++ [finding.rule]) := by
  unfold list
  split
  · rename_i hlisted
    have hmem : finding.rule ∈ seen := (h.listed _).mp (by simpa using hlisted)
    refine ⟨?_, fun id => ?_⟩
    · rw [erase_dups_append_of_mem hmem]
      exact h.rules
    · rw [h.listed, List.mem_append, List.mem_singleton]
      constructor
      · exact .inl
      · rintro (hid | rfl)
        · exact hid
        · exact hmem
  · rename_i hlisted
    have hmem : finding.rule ∉ seen := fun hmem => hlisted (by simpa [h.listed] using hmem)
    refine ⟨?_, fun id => ?_⟩
    · rw [erase_dups_append_of_not_mem hmem, List.map_append, ← h.rules]
      rfl
    · rw [List.mem_cons, h.listed, List.mem_append, List.mem_singleton, or_comm]

theorem ListsRules.run {listing : Listing} {seen : List Bytes} (h : ListsRules listing seen)
    (findings : List Finding) :
    ListsRules (findings.foldl list listing) (seen ++ findings.map (·.rule)) := by
  induction findings generalizing listing seen with
  | nil => simpa using h
  | cons finding findings ih =>
      have hrest := ih (h.step finding)
      rw [List.append_assoc] at hrest
      exact hrest

/-- The log lists the rules of its findings. -/
theorem rules_write_sarif (findings : List Finding) :
    rules (writeSarif findings) =
      (findings.map (·.rule)).eraseDups.map fun id => .object (rule id) := by
  have hstart : ListsRules {} [] := ⟨rfl, by simp⟩
  have hrules := (hstart.run findings).rules
  rw [List.nil_append] at hrules
  rw [← hrules]
  exact List.append_nil _

theorem rule_ids_write_sarif (findings : List Finding) :
    ruleIds (writeSarif findings) = (findings.map (·.rule)).eraseDups := by
  rw [ruleIds, rules_write_sarif, List.filterMap_map]
  have hread : (fun id => Json.textOf (.object (rule id)) (lit "id")) = some :=
    funext text_of_id
  exact (congrArg (List.filterMap · _) hread).trans List.filterMap_some

/-! ## The log -/

/-- What a log says of the findings it was written for. -/
structure Encodes (log : Json) (findings : List Finding) : Prop where
  /-- One result for each finding, in order, and it holds the finding. -/
  results_read : (results log).map readFinding = findings.map some
  /-- Each listed rule is the description of its id. -/
  rules_described : rules log = (ruleIds log).map fun id => .object (rule id)
  /-- The rules of the findings are listed, and no others. -/
  rules_listed : ∀ id, id ∈ ruleIds log ↔ ∃ finding ∈ findings, finding.rule = id
  /-- A rule comes after those that an earlier finding has brought, and so once. -/
  rules_ordered : (ruleIds log).Pairwise fun first second =>
    (findings.map (·.rule)).idxOf first < (findings.map (·.rule)).idxOf second
  /-- The rule of every result is listed. -/
  results_listed : ∀ result ∈ results log, ∃ id ∈ ruleIds log,
    result.textOf (lit "ruleId") = some id

theorem sarif_encodes (findings : List Finding) : Encodes (writeSarif findings) findings := by
  have hids := rule_ids_write_sarif findings
  refine ⟨?_, ?_, fun id => ?_, ?_, fun result hresult => ?_⟩
  · rw [results_write_sarif, List.map_map]
    exact List.map_congr_left fun finding _ => read_finding finding
  · rw [rules_write_sarif, hids]
  · rw [hids, List.mem_eraseDups, List.mem_map]
  · rw [hids]
    exact pairwise_idx_of_erase_dups _
  · rw [results_write_sarif, List.mem_map] at hresult
    obtain ⟨finding, hfinding, rfl⟩ := hresult
    refine ⟨finding.rule, ?_, (result_members finding).rule⟩
    rw [hids, List.mem_eraseDups]
    exact List.mem_map_of_mem hfinding

/-- The log encodes the findings, and it encodes no others. -/
theorem sarif_log_encodes (findings : List Finding) :
    Encodes (writeSarif findings) findings ∧
      ∀ others, writeSarif others = writeSarif findings → others = findings := by
  refine ⟨sarif_encodes findings, fun others hsame => ?_⟩
  have hothers := (sarif_encodes others).results_read
  rw [hsame, (sarif_encodes findings).results_read] at hothers
  exact (List.map_injective_iff.mpr (fun _ _ => Option.some.inj) hothers).symm

end Sarif

end RuntimeAnalyzer
