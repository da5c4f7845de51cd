import Mathlib.Data.List.DropRight
import Mathlib.Data.List.ModifyLast
import RuntimeAnalyzer.Findings.Rules
import RuntimeAnalyzer.Findings.Sites

/-!
# Diagnostic boxes

A box the runtime logs at WARN level: a line that names it, then rows `│ label : value │` between
`┌` and `└`. A row with an empty label continues the value above it. `DiagnosticBox.toFinding`
reads one finding off the rows.
-/

namespace RuntimeAnalyzer

/-- The rows read so far, label and value. -/
structure DiagnosticBox where
  rows : List (Bytes × Bytes) := []
  deriving DecidableEq, Repr

namespace DiagnosticBox

/-- `"│ "` -/
def kOpen : Bytes := lit "│ "

/-- `" │"` -/
def kClose : Bytes := lit " │"

/-- The line opens a box. -/
def opens (line : Bytes) : Bool :=
  contains line (lit "[WARN]") && (endsWith line (lit "[VTABLE]") || endsWith line (lit "[VCALL]"))

/-- The line closes an open box. -/
def closes (line : Bytes) : Bool :=
  contains line (lit "└")

/-- A text without the spaces around it. -/
def trim (text : Bytes) : Bytes :=
  (text.dropWhile (· = space)).rdropWhile (· = space)

/-- `rows.back().second += value` -/
def appendToLast (rows : List (Bytes × Bytes)) (value : Bytes) : List (Bytes × Bytes) :=
  rows.modifyLast fun row => (row.1, row.2 ++ value)

/-- Adds the label and the value of a row's text, which stands between the bars. -/
def addText (box : DiagnosticBox) (text : Bytes) : DiagnosticBox :=
  match ListSearch.find [colon] text with
  | none => box
  | some pos =>
      let label := trim (text.take pos)
      let value := trim (text.drop (pos + 1))
      if label = [] ∧ box.rows ≠ [] then { rows := appendToLast box.rows value }
      else { rows := box.rows ++ [(label, value)] }

/-- Reads a line of an open box. A line without both bars adds nothing. -/
def addRow (box : DiagnosticBox) (line : Bytes) : DiagnosticBox :=
  match ListSearch.find kOpen line, ListSearch.rfind kClose line with
  | some opened, some closed =>
      if closed < opened + kOpen.length then box
      else
        box.addText ((line.drop (opened + kOpen.length)).take (closed - opened - kOpen.length))
  | _, _ => box

/-- The earliest entry of the vtable table whose warning a value starts with. -/
def candidate (value : Bytes) : Option Nat :=
  kVtableRules.findIdx? fun entry => startsWith value entry.warning

/-- The entry kept after a further match; the source compares pointers into the table. -/
def earlier (rule candidate : Option Nat) : Option Nat :=
  match rule, candidate with
  | none, _ => candidate
  | _, none => rule
  | some kept, some found => if found < kept then some found else some kept

/-- What `toFinding` has gathered: the location, the message and the entry of the table. -/
structure Reading where
  location : Option SourceLocation := none
  message : Bytes := []
  rule : Option Nat := none
  deriving DecidableEq, Repr

/-- The loop body of `ToFinding`. -/
def readRow (reading : Reading) (row : Bytes × Bytes) : Reading :=
  if row.1 = lit "site" then { reading with location := parseSite row.2 }
  else if row.1 ≠ lit "warn" then reading
  else
    { reading with
      message := (if reading.message ≠ [] then reading.message ++ lit "; " else []) ++ row.2
      rule := earlier reading.rule (candidate row.2) }

/-- The entry a box that matches none of the table is reported under. -/
def otherWarning : VtableRule :=
  ⟨[], lit "vtable-diagnostic", lit "CWE-843", .warning⟩

/-- The finding of a box; nothing when no warning was read. -/
def toFinding (box : DiagnosticBox) : Option Finding :=
  let reading := box.rows.foldl readRow {}
  if reading.message = [] then none
  else
    let entry := (reading.rule.bind (kVtableRules[·]?)).getD otherWarning
    some
      { rule := entry.rule
        cwe := entry.cwe
        severity := entry.severity
        message := reading.message
        location := reading.location }

end DiagnosticBox

end RuntimeAnalyzer
