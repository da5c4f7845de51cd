import RuntimeAnalyzer.Findings.Box

/-!
# The report parser

`parseFindings` reads the runtime's reports off a program's output, line by line. Between lines it
keeps the findings so far, whether the last of them is a bounds report whose indented lines may
still follow, and the diagnostic box that is open.
-/

namespace RuntimeAnalyzer

/-! ## Reports that start on a line -/

/-- The finding of a bounds report's heading, for one rule. -/
def boundsFindingOf (line : Bytes) (bounds : BoundsRule) : Option Finding :=
  match ListSearch.find (lit "ct: " ++ bounds.rule ++ lit " ") line with
  | none => none
  | some pos =>
      let message := line.drop (pos + 4)
      let write := contains message (lit " WRITE ")
      some
        { rule := bounds.rule
          message := message
          cwe := if write then bounds.writeCwe else bounds.readCwe }

/-- The finding of a bounds report's heading: the first rule of the table that the line names. -/
def boundsFinding (line : Bytes) : Option Finding :=
  kBoundsRules.findSome? (boundsFindingOf line)

/-- A one-line report, with its site fields: `site=` is the faulting access and `alloc_site=` the
allocation. -/
def oneLineFinding (line rule cwe : Bytes) (severity : Severity) (message : Bytes) : Finding :=
  { rule := rule
    cwe := cwe
    severity := severity
    message := message
    location := (field line (lit "site")).bind parseSite
    allocation := (field line (lit "alloc_site")).bind parseSite }

/-- The message of a leak. -/
def leakMessage (line : Bytes) : Bytes :=
  match field line (lit "size") with
  | none => lit "memory leak"
  | some size => lit "memory leak" ++ (lit " of " ++ size ++ lit " bytes")

/-- The finding of a one-line report: a double free or a leak. -/
def oneLineReport (line : Bytes) : Option Finding :=
  if contains line (lit "(double free)") then
    some (oneLineFinding line (lit "double-free") (lit "CWE-415") .error (lit "double free"))
  else if contains line (lit "ct: leak ptr=") then
    some (oneLineFinding line (lit "memory-leak") (lit "CWE-401") .warning (leakMessage line))
  else none

/-- The finding a line starts when no box and no bounds report takes it. -/
def reportFinding (line : Bytes) : Option Finding :=
  (boundsFinding line).or (oneLineReport line)

/-! ## The loop -/

/-- What `ParseFindings` keeps between lines. -/
structure ParserState where
  findings : List Finding := []
  inBoundsReport : Bool := false
  box : Option DiagnosticBox := none
  deriving DecidableEq, Repr

/-- The sites an indented line of a bounds report gives its finding. -/
def continueReport (line : Bytes) (finding : Finding) : Finding :=
  let finding := match field line (lit "access") with
    | none => finding
    | some site => { finding with location := parseSite site }
  match field line (lit "alloc_site") with
  | none => finding
  | some site => { finding with allocation := parseSite site }

/-- One turn of the loop of `ParseFindings`. -/
def parseLine (state : ParserState) (line : Bytes) : ParserState :=
  match state.box with
  | some box =>
      if DiagnosticBox.closes line then
        { state with findings := state.findings ++ box.toFinding.toList, box := none }
      else { state with box := some (box.addRow line) }
  | none =>
      if DiagnosticBox.opens line then { state with inBoundsReport := false, box := some {} }
      -- A bounds report goes on over indented lines that carry no log prefix.
      else if state.inBoundsReport && startsWith line (lit "  ") then
        { state with findings := state.findings.modifyLast (continueReport line) }
      else
        match boundsFinding line with
        | some finding =>
            { state with findings := state.findings ++ [finding], inBoundsReport := true }
        | none =>
            { state with
              findings := state.findings ++ (oneLineReport line).toList
              inBoundsReport := false }

/-- The loop over the lines of the output. -/
def parseLines (state : ParserState) (lines : List Bytes) : ParserState :=
  lines.foldl parseLine state

/-- The memory errors the runtime reported in an output without ANSI escapes. -/
def parseFindings (output : Bytes) : List Finding :=
  (parseLines {} (linesOf output)).findings

@[simp] theorem parse_lines_nil (state : ParserState) : parseLines state [] = state := rfl

@[simp] theorem parse_lines_cons (state : ParserState) (line : Bytes) (lines : List Bytes) :
    parseLines state (line :: lines) = parseLines (parseLine state line) lines := rfl

theorem parse_lines_append (state : ParserState) (first second : List Bytes) :
    parseLines state (first ++ second) = parseLines (parseLines state first) second :=
  List.foldl_append

/-- The heap overflow of the parser's own test. -/
example : parseFindings
    (lit "|1| ==ct== [INFO] tracing-malloc :: tid=4 site=sub/oob.c:4:19\n" ++
      lit "|1| ==ct== [ERROR] ct: heap-buffer-overflow WRITE of size 4\n" ++
      lit "  access=sub/oob.c:5:15 ptr=0x60 offset=16\n" ++
      lit "  alloc_size=16 alloc_site=sub/oob.c:4:19 base=0x60\n") =
    [{ rule := lit "heap-buffer-overflow"
       cwe := lit "CWE-122"
       message := lit "heap-buffer-overflow WRITE of size 4"
       location := some ⟨lit "sub/oob.c", 5, 15⟩
       allocation := some ⟨lit "sub/oob.c", 4, 19⟩ }] := by
  decide +kernel

end RuntimeAnalyzer
