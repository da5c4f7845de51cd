import RuntimeAnalyzer.Findings.Parser
import RuntimeAnalyzer.Lib.Access

/-!
# The parser with checked access

`ParseFindings` once more, as the source has it: the loops over positions of the text, and every
`substr`, index, difference and `back()` as an operation of `Access`, which fails outside of its
bounds.
-/

namespace RuntimeAnalyzer

open Access

namespace Checked

/-! ## Fields and sites -/

/-- `at == 0 || line[at - 1] == ' '` -/
def startsField (line : Bytes) (pos : Nat) : Option Bool :=
  if pos = 0 then some true
  else do
    let byte ← index line (← difference pos 1)
    some (byte = space)

/-- `value_start < line.size() && line[value_start] == '='` -/
def assigns (line : Bytes) (valueStart : Nat) : Option Bool :=
  if valueStart < line.length then do
    let byte ← index line valueStart
    some (byte = equals)
  else some false

/-- The value of a field, up to the next space. -/
def fieldValue (line : Bytes) (valueStart : Nat) : Option Bytes := do
  let value ← substr line (valueStart + 1)
  substrUpTo value 0 ((ListSearch.find [space] value).getD value.length)

/-- The loop of `Field`; it fails when it has not ended after the given turns. -/
def fieldLoop (line key : Bytes) : Nat → Nat → Option (Option Bytes)
  | 0, _ => none
  | turns + 1, start =>
      match findFrom line key start with
      | none => some none
      | some pos => do
          let valueStart := pos + key.length
          let follows ← startsField line pos
          let found ← if follows then assigns line valueStart else some false
          if found then (fieldValue line valueStart).map some
          else fieldLoop line key turns (pos + 1)

/-- `Field` -/
def field (line key : Bytes) : Option (Option Bytes) :=
  fieldLoop line key (line.length + 2) 0

/-- `TakeNumber` -/
def takeNumber (site : Bytes) : Option (Option (Bytes × Nat)) :=
  match ListSearch.rfind [colon] site with
  | none => some none
  | some pos => do
      let text ← substr site (pos + 1)
      match fromChars text with
      | none => some none
      | some (value, taken) =>
          if text = [] ∨ taken ≠ text.length then some none
          else do
            let rest ← substrUpTo site 0 pos
            some (some (rest, value))

/-- `ParseSite` -/
def parseSite (site : Bytes) : Option (Option SourceLocation) := do
  match ← takeNumber site with
  | none => some none
  | some (rest, last) =>
      let before ← takeNumber rest
      let location : SourceLocation :=
        match before with
        | some (file, line) => ⟨file, line, last⟩
        | none => ⟨rest, last, 0⟩
      if location.file = [] ∨ location.line = 0 then some none else some (some location)

/-- `if (const auto site = Field(line, key)) … = ParseSite(*site);` on a location that is not set
yet. -/
def siteField (line key : Bytes) : Option (Option SourceLocation) := do
  match ← field line key with
  | none => some none
  | some site => parseSite site

/-! ## Boxes -/

/-- `Trim` -/
def trim (text : Bytes) : Option Bytes :=
  match text.findIdx? (· ≠ space) with
  | none => some []
  | some first => do
      let last ← lastIdx? (· ≠ space) text
      substrUpTo text first ((← difference last first) + 1)

/-- The end of `AddRow`, on the text between the bars. -/
def addText (box : DiagnosticBox) (text : Bytes) : Option DiagnosticBox :=
  match ListSearch.find [colon] text with
  | none => some box
  | some pos => do
      let label ← trim (← substrUpTo text 0 pos)
      let value ← trim (← substr text (pos + 1))
      if label = [] ∧ box.rows ≠ [] then do
        let rows ← modifyBack box.rows fun row => (row.1, row.2 ++ value)
        some { rows }
      else some { rows := box.rows ++ [(label, value)] }

/-- `AddRow` -/
def addRow (box : DiagnosticBox) (line : Bytes) : Option DiagnosticBox :=
  match ListSearch.find DiagnosticBox.kOpen line, ListSearch.rfind DiagnosticBox.kClose line with
  | some opened, some closed =>
      if closed < opened + DiagnosticBox.kOpen.length then some box
      else do
        let count ← difference (← difference closed opened) DiagnosticBox.kOpen.length
        addText box (← substrUpTo line (opened + DiagnosticBox.kOpen.length) count)
  | _, _ => some box

/-- The loop body of `ToFinding`. -/
def readRow (reading : DiagnosticBox.Reading) (row : Bytes × Bytes) :
    Option DiagnosticBox.Reading :=
  if row.1 = lit "site" then do
    let location ← parseSite row.2
    some { reading with location }
  else some (DiagnosticBox.readRow reading row)

/-- `ToFinding` -/
def toFinding (box : DiagnosticBox) : Option (Option Finding) := do
  let reading ← box.rows.foldlM readRow {}
  if reading.message = [] then some none
  else
    let entry := (reading.rule.bind (kVtableRules[·]?)).getD DiagnosticBox.otherWarning
    some <| some
      { rule := entry.rule
        cwe := entry.cwe
        severity := entry.severity
        message := reading.message
        location := reading.location }

/-! ## Reports -/

/-- The loop body of `BoundsFinding`. -/
def boundsFindingOf (line : Bytes) (bounds : BoundsRule) : Option (Option Finding) :=
  match ListSearch.find (lit "ct: " ++ bounds.rule ++ lit " ") line with
  | none => some none
  | some pos => do
      let message ← substr line (pos + 4)
      let write := contains message (lit " WRITE ")
      some <| some
        { rule := bounds.rule
          message := message
          cwe := if write then bounds.writeCwe else bounds.readCwe }

/-- The loop of `BoundsFinding`. -/
def boundsFindingAmong (line : Bytes) : List BoundsRule → Option (Option Finding)
  | [] => some none
  | bounds :: rest => do
      match ← boundsFindingOf line bounds with
      | some finding => some (some finding)
      | none => boundsFindingAmong line rest

/-- `BoundsFinding` -/
def boundsFinding (line : Bytes) : Option (Option Finding) :=
  boundsFindingAmong line kBoundsRules

/-- `OneLineFinding` -/
def oneLineFinding (line rule cwe : Bytes) (severity : Severity) (message : Bytes) :
    Option Finding := do
  let location ← siteField line (lit "site")
  let allocation ← siteField line (lit "alloc_site")
  some { rule, cwe, severity, message, location, allocation }

/-- The message of a leak. -/
def leakMessage (line : Bytes) : Option Bytes := do
  match ← field line (lit "size") with
  | none => some (lit "memory leak")
  | some size => some (lit "memory leak" ++ (lit " of " ++ size ++ lit " bytes"))

/-- The one-line reports of `ParseFindings`. -/
def oneLineReport (line : Bytes) : Option (Option Finding) :=
  if contains line (lit "(double free)") then
    (oneLineFinding line (lit "double-free") (lit "CWE-415") .error (lit "double free")).map some
  else if contains line (lit "ct: leak ptr=") then do
    let message ← leakMessage line
    (oneLineFinding line (lit "memory-leak") (lit "CWE-401") .warning message).map some
  else some none

/-- The sites of an indented line, which go to `findings.back()`. -/
def continueReport (line : Bytes) (findings : List Finding) : Option (List Finding) := do
  let findings ←
    match ← field line (lit "access") with
    | none => some findings
    | some site => do
        let location ← parseSite site
        modifyBack findings fun finding => { finding with location }
  match ← field line (lit "alloc_site") with
  | none => some findings
  | some site => do
      let allocation ← parseSite site
      modifyBack findings fun finding => { finding with allocation }

/-! ## The loop -/

/-- One turn of the loop of `ParseFindings`, after the line is cut off. -/
def parseLine (state : ParserState) (line : Bytes) : Option ParserState :=
  match state.box with
  | some box =>
      if DiagnosticBox.closes line then do
        let finding ← toFinding box
        some { state with findings := state.findings ++ finding.toList, box := none }
      else do
        let box ← addRow box line
        some { state with box := some box }
  | none =>
      if DiagnosticBox.opens line then
        some { state with inBoundsReport := false, box := some {} }
      else if state.inBoundsReport && startsWith line (lit "  ") then do
        let findings ← continueReport line state.findings
        some { state with findings }
      else do
        match ← boundsFinding line with
        | some finding =>
            some { state with findings := state.findings ++ [finding], inBoundsReport := true }
        | none => do
            let finding ← oneLineReport line
            some
              { state with
                findings := state.findings ++ finding.toList
                inBoundsReport := false }

/-- The loop of `ParseFindings` from position `start` on; it fails when it has not ended after the
given turns. -/
def parseLoop (output : Bytes) : Nat → Nat → ParserState → Option ParserState
  | 0, _, _ => none
  | turns + 1, start, state =>
      if start < output.length then do
        let ended := (findFrom output [newline] start).getD output.length
        let line ← substrUpTo output start (← difference ended start)
        let state ← parseLine state line
        parseLoop output turns (ended + 1) state
      else some state

/-- `ParseFindings` -/
def parseFindings (output : Bytes) : Option (List Finding) :=
  (parseLoop output (output.length + 2) 0 {}).map (·.findings)

end Checked

end RuntimeAnalyzer
