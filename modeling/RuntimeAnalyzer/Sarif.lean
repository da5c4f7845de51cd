import RuntimeAnalyzer.Findings.Rules

/-!
# The SARIF log

The JSON value that `WriteSarif` builds of the findings. LLVM's library prints it, and is taken to
print and to read it faithfully.
-/

namespace RuntimeAnalyzer

/-- `llvm::json::Value`, as far as the log goes. -/
inductive Json
  | string (text : Bytes)
  | number (value : Int)
  | array (items : List Json)
  /-- The keys are distinct, and their order does not matter. -/
  | object (properties : List (Bytes × Json))
  deriving Repr

namespace Json

/-- `llvm::json::Object` -/
abbrev Object := List (Bytes × Json)

/-- `object[key] = value` -/
def set (object : Object) (key : Bytes) (value : Json) : Object :=
  object.filter (·.1 ≠ key) ++ [(key, value)]

/-- The value of a key. -/
def get? (value : Json) (key : Bytes) : Option Json :=
  match value with
  | object properties => properties.lookup key
  | _ => none

/-- The items of an array under a key; none where there is no such array. -/
def itemsOf (value : Json) (key : Bytes) : List Json :=
  match value.get? key with
  | some (array items) => items
  | _ => []

end Json

namespace Sarif

open Json (Object)

/-- `Location` -/
def location (location : SourceLocation) : Object :=
  let region : Object := [(lit "startLine", .number location.line)]
  let region :=
    if location.column ≠ 0 then Json.set region (lit "startColumn") (.number location.column)
    else region
  [(lit "physicalLocation",
    .object
      [(lit "artifactLocation", .object [(lit "uri", .string location.file)]),
        (lit "region", .object region)])]

/-- A rule as the log lists it: its id, and its title and description when it has them. -/
def rule (rule : Bytes) : Object :=
  let listed : Object := [(lit "id", .string rule)]
  match describeRule rule with
  | none => listed
  | some described =>
      let listed :=
        Json.set listed (lit "shortDescription") (.object [(lit "text", .string described.title)])
      Json.set listed (lit "fullDescription")
        (.object [(lit "text", .string described.description)])

/-- The allocation as a related location. -/
def allocated (site : SourceLocation) : Object :=
  let allocated := Json.set (location site) (lit "id") (.number 0)
  Json.set allocated (lit "message") (.object [(lit "text", .string (lit "allocated here"))])

/-- `Result` -/
def result (finding : Finding) : Object :=
  let properties : Object := [(lit "cwe", .string finding.cwe)]
  let properties :=
    match describeRule finding.rule with
    | none => properties
    | some described => Json.set properties (lit "confidence") (.string described.confidence)
  let result : Object :=
    [(lit "ruleId", .string finding.rule),
      (lit "level", .string (if finding.severity = .error then lit "error" else lit "warning")),
      (lit "message", .object [(lit "text", .string finding.message)]),
      (lit "properties", .object properties)]
  let result :=
    match finding.location with
    | none => result
    | some site => Json.set result (lit "locations") (.array [.object (location site)])
  match finding.allocation with
  | none => result
  | some site => Json.set result (lit "relatedLocations") (.array [.object (allocated site)])

/-- What the loop of `WriteSarif` has gathered. -/
structure Listing where
  results : List Json := []
  rules : List Json := []
  listed : List Bytes := []

/-- The loop body: each finding is a result, and a rule is listed at its first finding. -/
def list (listing : Listing) (finding : Finding) : Listing :=
  if listing.listed.contains finding.rule then
    { listing with results := listing.results ++ [.object (result finding)] }
  else
    { results := listing.results ++ [.object (result finding)]
      rules := listing.rules ++ [.object (rule finding.rule)]
      listed := finding.rule :: listing.listed }

end Sarif

/-- The log of `WriteSarif`. -/
def writeSarif (findings : List Finding) : Json :=
  let listing := findings.foldl Sarif.list {}
  let driver : Json.Object :=
    [(lit "name", .string (lit "coretrace-runtime-analyzer")),
      (lit "informationUri",
        .string (lit "https://github.com/CoreTrace/coretrace-runtime-analyzer")),
      (lit "rules", .array listing.rules)]
  let run : Json.Object :=
    [(lit "tool", .object [(lit "driver", .object driver)]),
      (lit "results", .array listing.results)]
  .object
    [(lit "version", .string (lit "2.1.0")),
      (lit "$schema", .string (lit "https://json.schemastore.org/sarif-2.1.0.json")),
      (lit "runs", .array [.object run])]

namespace Sarif

/-- The results of a log. -/
def results (log : Json) : List Json :=
  (log.itemsOf (lit "runs")).flatMap (·.itemsOf (lit "results"))

/-- The locations of a result, its related ones among them. -/
def locations (result : Json) : List Json :=
  result.itemsOf (lit "locations") ++ result.itemsOf (lit "relatedLocations")

/-- The first line of a location's region. -/
def startLine (location : Json) : Option Json :=
  ((location.get? (lit "physicalLocation")).bind (·.get? (lit "region"))).bind
    (·.get? (lit "startLine"))

/-- The confidence of a result. -/
def confidence (result : Json) : Option Json :=
  (result.get? (lit "properties")).bind (·.get? (lit "confidence"))

/-- The loop gathers one result for each finding, in order. -/
theorem list_results (listing : Listing) (findings : List Finding) :
    (findings.foldl list listing).results =
      listing.results ++ findings.map fun finding => .object (result finding) := by
  induction findings generalizing listing with
  | nil => simp
  | cons finding findings ih =>
      have hone : (list listing finding).results =
          listing.results ++ [.object (result finding)] := by
        unfold list
        split <;> rfl
      rw [List.foldl_cons, ih, hone, List.map_cons, List.append_assoc, List.singleton_append]

/-- The log has one result for each finding, in order. -/
theorem results_write_sarif (findings : List Finding) :
    results (writeSarif findings) = findings.map fun finding => .object (result finding) := by
  have hresults := list_results {} findings
  rw [List.nil_append] at hresults
  rw [← hresults]
  exact List.append_nil _

/-- The confidence of a finding's result is that of its rule. -/
theorem confidence_result {finding : Finding} {described : RuleDescription}
    (h : describeRule finding.rule = some described) :
    confidence (.object (result finding)) = some (.string described.confidence) := by
  unfold result
  rw [h]
  cases finding.location <;> cases finding.allocation <;> rfl

/-- The locations of a finding's result are its location and its allocation. -/
theorem locations_result (finding : Finding) :
    locations (.object (result finding)) =
      (finding.location.toList.map fun site => .object (location site)) ++
        finding.allocation.toList.map fun site => .object (allocated site) := by
  unfold result
  cases describeRule finding.rule <;> cases finding.location <;> cases finding.allocation <;> rfl

theorem start_line_location (site : SourceLocation) :
    startLine (.object (location site)) = some (.number site.line) := by
  unfold location
  dsimp only
  split <;> rfl

theorem start_line_allocated (site : SourceLocation) :
    startLine (.object (allocated site)) = some (.number site.line) := by
  rw [← start_line_location]
  rfl

end Sarif

end RuntimeAnalyzer
