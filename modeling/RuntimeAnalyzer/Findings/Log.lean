import RuntimeAnalyzer.Findings.Problems
import RuntimeAnalyzer.Findings.SiteText

/-!
# Logs of the runtime

The log the runtime writes, as items, and the finding each item stands for. The structures carry
what makes an item well formed, so a `Log` is a log the parser is meant to read; `Log.text` prints
it. The rules are those of the problems that are reported; nothing here is read off the parser.
-/

namespace RuntimeAnalyzer

/-! ## Words and prefixes -/

/-- `']'` -/
abbrev closingBracket : Byte := 93

/-- A line of words. -/
def unwords (ws : List Bytes) : Bytes :=
  [space].intercalate ws

/-- A word `key=value`. -/
def assign (key value : Bytes) : Bytes :=
  key ++ equals :: value

/-- A value that is printed as one word: a pointer, a base or an offset. -/
structure Token where
  bytes : Bytes
  no_space : space ∉ bytes
  no_newline : newline ∉ bytes
  no_bracket : closingBracket ∉ bytes

inductive Level
  | info
  | warn
  | error
  deriving DecidableEq, Repr

/-- The level as a word of the prefix. -/
def Level.tag : Level → Bytes
  | info => lit "[INFO]"
  | warn => lit "[WARN]"
  | error => lit "[ERROR]"

/-- The words `|pid| ==ct== [LEVEL]`, which start every line of the runtime but the indented
ones. -/
def logPrefix (pid : Nat) (level : Level) : List Bytes :=
  [lit "|" ++ Decimal.render pid ++ lit "|", lit "==ct==", level.tag]

/-! ## Reports on lines -/

/-- A bounds report: a heading and two indented lines. -/
structure BoundsReport where
  pid : Nat
  level : Level
  error : BoundsError
  access : AccessKind
  size : Nat
  accessSite : Site
  pointer : Token
  offset : Token
  allocSize : Nat
  allocSite : Site
  base : Token

namespace BoundsReport

/-- The words of a heading after `ct:`. -/
def headingWords (report : BoundsReport) : List Bytes :=
  [report.error.rule, report.access.word, lit "of", lit "size", Decimal.render report.size]

/-- The words of the first indented line. -/
def accessWords (report : BoundsReport) : List Bytes :=
  [[], [], assign (lit "access") report.accessSite.text,
    assign (lit "ptr") report.pointer.bytes, assign (lit "offset") report.offset.bytes]

/-- The words of the second indented line. -/
def allocWords (report : BoundsReport) : List Bytes :=
  [[], [], assign (lit "alloc_size") (Decimal.render report.allocSize),
    assign (lit "alloc_site") report.allocSite.text, assign (lit "base") report.base.bytes]

def heading (report : BoundsReport) : Bytes :=
  unwords (logPrefix report.pid report.level ++ lit "ct:" :: report.headingWords)

def lines (report : BoundsReport) : List Bytes :=
  [report.heading, unwords report.accessWords, unwords report.allocWords]

def finding (report : BoundsReport) : Finding where
  rule := report.error.rule
  cwe := report.error.cwe report.access
  severity := .error
  message := unwords report.headingWords
  location := report.accessSite.location
  allocation := report.allocSite.location

/-- A report as the runtime prints it. -/
example :
    lines
        { pid := 91485
          level := .error
          error := .stackBufferOverflow
          access := .write
          size := 4
          accessSite := .unknown
          pointer := ⟨lit "0x16bd52800", by decide, by decide, by decide⟩
          offset := ⟨lit "16", by decide, by decide, by decide⟩
          allocSize := 16
          allocSite := .unknown
          base := ⟨lit "0x16bd527f0", by decide, by decide, by decide⟩ } =
      [lit "|91485| ==ct== [ERROR] ct: stack-buffer-overflow WRITE of size 4",
        lit "  access=<unknown> ptr=0x16bd52800 offset=16",
        lit "  alloc_size=16 alloc_site=<unknown> base=0x16bd527f0"] := by
  decide

end BoundsReport

/-- A block that is freed a second time. -/
structure DoubleFree where
  pid : Nat
  level : Level
  pointer : Token
  site : Site
  allocSite : Site

namespace DoubleFree

def words (free : DoubleFree) : List Bytes :=
  logPrefix free.pid free.level ++
    [lit "tracing-free", assign (lit "ptr") free.pointer.bytes, lit "(double", lit "free)",
      assign (lit "site") free.site.text, assign (lit "alloc_site") free.allocSite.text]

def finding (free : DoubleFree) : Finding where
  rule := lit "double-free"
  cwe := lit "CWE-415"
  severity := .error
  message := lit "double free"
  location := free.site.location
  allocation := free.allocSite.location

end DoubleFree

/-- A block that is still allocated at exit. -/
structure Leak where
  pid : Nat
  level : Level
  pointer : Token
  size : Nat
  allocSite : Site

namespace Leak

def words (leak : Leak) : List Bytes :=
  logPrefix leak.pid leak.level ++
    [lit "ct:", lit "leak", assign (lit "ptr") leak.pointer.bytes,
      assign (lit "size") (Decimal.render leak.size),
      assign (lit "alloc_site") leak.allocSite.text]

def finding (leak : Leak) : Finding where
  rule := lit "memory-leak"
  cwe := lit "CWE-401"
  severity := .warning
  message := unwords [lit "memory", lit "leak", lit "of", Decimal.render leak.size, lit "bytes"]
  allocation := leak.allocSite.location

end Leak

/-! ## Boxes -/

/-- A text inside a box: on one line, without the corner that closes a box and without spaces
around it. -/
structure Cell where
  bytes : Bytes
  no_newline : newline ∉ bytes
  no_corner : ¬ lit "└" <:+: bytes
  head_ne : bytes.head? ≠ some space
  last_ne : bytes.getLast? ≠ some space

/-- One line of a row: a part of its value, and the padding of both columns. -/
structure RowLine where
  chunk : Cell
  labelPadding : Nat
  valuePadding : Nat

/-- A row: a label and a value, which is wrapped over one line or more. -/
structure Row where
  label : Cell
  label_ne : label.bytes ≠ []
  no_colon : colon ∉ label.bytes
  first : RowLine
  wrapped : List RowLine

/-- A name without the bars and corners boxes are drawn with. -/
structure Title where
  bytes : Bytes
  no_newline : newline ∉ bytes
  no_bar : ¬ lit "│" <:+: bytes
  no_corner : ¬ lit "└" <:+: bytes

/-- What is drawn of a box. -/
structure Frame where
  pid : Nat
  tag : BoxTag
  title : Title
  topWidth : Nat
  bottomWidth : Nat
  rows : List Row

/-- `n` spaces. -/
def padding (n : Nat) : Bytes :=
  List.replicate n space

/-- `n` horizontal strokes. -/
def strokes (n : Nat) : Bytes :=
  (List.replicate n (lit "─")).flatten

/-- A line of the runtime, its text after the prefix. -/
def logLine (pid : Nat) (level : Level) (text : Bytes) : Bytes :=
  unwords (logPrefix pid level) ++ space :: text

/-- What stands between the bars of a line of a row. The label is empty on a wrapped line. -/
def RowLine.text (line : RowLine) (label : Bytes) : Bytes :=
  label ++ padding line.labelPadding ++ colon :: space :: line.chunk.bytes ++
    padding line.valuePadding

/-- A line of a row. -/
def RowLine.line (line : RowLine) (pid : Nat) (level : Level) (label : Bytes) : Bytes :=
  logLine pid level (lit "│ " ++ line.text label ++ lit " │")

/-- A line of a row as the runtime prints it. -/
example :
    RowLine.line ⟨⟨lit "no vptr", by decide, by decide, by decide, by decide⟩, 3, 5⟩ 72292 .warn
        (lit "warn") =
      lit "|72292| ==ct== [WARN] │ warn   : no vptr      │" := by
  decide

namespace Row

/-- The value, unwrapped. -/
def value (row : Row) : Bytes :=
  (row.first :: row.wrapped).flatMap (·.chunk.bytes)

def lines (row : Row) (pid : Nat) (level : Level) : List Bytes :=
  row.first.line pid level row.label.bytes :: row.wrapped.map (·.line pid level [])

end Row

namespace Frame

/-- The line that names the box. -/
def opener (frame : Frame) (level : Level) : Bytes :=
  logLine frame.pid level frame.tag.word

/-- The top of a box. -/
def top (frame : Frame) (level : Level) : Bytes :=
  logLine frame.pid level
    (lit "┌─ " ++ frame.title.bytes ++ space :: strokes frame.topWidth ++ lit "┐")

/-- The bottom of a box. -/
def bottom (frame : Frame) (level : Level) : Bytes :=
  logLine frame.pid level (lit "└" ++ strokes frame.bottomWidth ++ lit "┘")

def lines (frame : Frame) (level : Level) : List Bytes :=
  frame.opener level :: frame.top level ::
    (frame.rows.flatMap (·.lines frame.pid level) ++ [frame.bottom level])

/-- The values of the rows that warn. -/
def warnings (frame : Frame) : List Bytes :=
  (frame.rows.filter (·.label.bytes = lit "warn")).map Row.value

end Frame

/-- A box with a warning, logged at WARN level. -/
structure WarnBox extends Frame where
  /-- The site that the box shows, if it shows one. -/
  site : Option Site
  warned : ∃ warning ∈ toFrame.warnings, warning ≠ []
  site_rows : ∀ row ∈ toFrame.rows, row.label.bytes = lit "site" →
    site.map Site.text = some row.value
  site_shown : site.isSome → ∃ row ∈ toFrame.rows, row.label.bytes = lit "site"

namespace WarnBox

/-- The issue that the box is reported under: the most specific one that a warning of it shows. -/
def issue (box : WarnBox) : VtableIssue :=
  ((vtableWarnings.find? fun known => box.warnings.any (startsWith · known.1)).map (·.2)).getD
    .diagnostic

/-- The message lists the warnings from the first that is not empty. -/
def finding (box : WarnBox) : Finding where
  rule := box.issue.rule
  cwe := box.issue.cwe
  severity := box.issue.severity
  message := (lit "; ").intercalate (box.warnings.dropWhile (· = []))
  location := box.site.bind Site.location

end WarnBox

/-- A box that only traces, logged at INFO level. -/
structure InfoBox extends Frame where
  quiet : ∀ line ∈ toFrame.lines .info, ¬ ReportHeading line

/-- A line of the program, or of the runtime's tracing. -/
structure NoiseLine where
  bytes : Bytes
  no_newline : newline ∉ bytes
  quiet : ¬ ReportHeading bytes
  no_opener : ¬ WarnOpener bytes

/-! ## Logs -/

inductive Item
  | noise (line : NoiseLine)
  | bounds (report : BoundsReport)
  | doubleFree (free : DoubleFree)
  | leak (block : Leak)
  | warnBox (box : WarnBox)
  | infoBox (box : InfoBox)

namespace Item

def lines : Item → List Bytes
  | noise line => [line.bytes]
  | bounds report => report.lines
  | doubleFree free => [unwords free.words]
  | leak block => [unwords block.words]
  | warnBox box => box.lines .warn
  | infoBox box => box.lines .info

/-- The finding an item stands for. -/
def finding : Item → Option Finding
  | noise _ | infoBox _ => none
  | bounds report => some report.finding
  | doubleFree free => some free.finding
  | leak block => some block.finding
  | warnBox box => some box.finding

/-- The next line still belongs to a bounds report if it is indented. -/
def leavesReport (inReport : Bool) : Item → Bool
  | noise line => inReport && startsWith line.bytes (lit "  ")
  | bounds _ => true
  | _ => false

/-- Noise that is indented under a bounds report shows none of the report's sites. -/
def Fits (inReport : Bool) : Item → Prop
  | noise line => inReport = true → startsWith line.bytes (lit "  ") = true →
      ∀ word ∈ words line.bytes,
        ¬ assign (lit "access") [] <+: word ∧ ¬ assign (lit "alloc_site") [] <+: word
  | _ => True

end Item

/-- Every item fits where it stands. -/
def FitsFrom (inReport : Bool) : List Item → Prop
  | [] => True
  | item :: items => item.Fits inReport ∧ FitsFrom (item.leavesReport inReport) items

/-- A well-formed log. -/
structure Log where
  items : List Item
  fits : FitsFrom false items

namespace Log

/-- The lines of a log. -/
def lines (log : Log) : List Bytes :=
  log.items.flatMap Item.lines

/-- The log as a text, its lines joined by newlines. -/
def text (log : Log) : Bytes :=
  [newline].intercalate log.lines

/-- The text holds the lines of the log, joined by newlines or each ended by one. -/
def WrittenAs (log : Log) (text : Bytes) : Prop :=
  text = log.text ∨ text = log.lines.flatMap (· ++ [newline])

/-- The findings a log stands for, in its order. -/
def findings (log : Log) : List Finding :=
  log.items.filterMap Item.finding

end Log

end RuntimeAnalyzer
