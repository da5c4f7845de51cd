import RuntimeAnalyzer.Events
import RuntimeAnalyzer.Findings.SiteTexts
import RuntimeAnalyzer.Lib.Blocks
import RuntimeAnalyzer.SarifEncoding

/-!
# Reading the text summary

The lines that `PrintFindings` writes are read back here to the findings. A place ends where a colon
and a space follow, which a file name can hold too, and a file name that ends in a number looks like
one with a line. These are the only ones that are not read back (`findings_read_back_iff`).
-/

namespace RuntimeAnalyzer

/-! ## The reader -/

/-- What follows the start of a text. -/
def stripStart (start text : Bytes) : Option Bytes :=
  if startsWith text start then some (text.drop start.length) else none

/-- The text before the first `": "`, and what follows it. -/
def cutColon (text : Bytes) : Option (Bytes × Bytes) :=
  (ListSearch.find (lit ": ") text).map fun pos => (text.take pos, text.drop (pos + 2))

/-- `<message> [<rule>, <cwe>]` -/
def readTitle (text : Bytes) : Option (Bytes × Bytes × Bytes) := do
  let pos ← ListSearch.rfind [bracket] text
  let names := (text.drop (pos + 1)).dropLast
  let comma ← ListSearch.find (lit ", ") names
  some ((text.take pos).dropLast, names.take comma, names.drop (comma + 2))

/-- `[<place>: ]<level>: `, and what follows it. -/
def readOpening (text : Bytes) : Option (Option SourceLocation × Severity × Bytes) := do
  let (first, rest) ← cutColon text
  match Sarif.readLevel first with
  | some severity => some (none, severity, rest)
  | none =>
      let place ← parseSite first
      let (level, title) ← cutColon rest
      some (some place, ← Sarif.readLevel level, title)

/-- The line of a finding. -/
def readHead (text : Bytes) : Option Finding := do
  let (location, severity, title) ← readOpening text
  let (message, rule, cwe) ← readTitle title
  some { rule, cwe, severity, message, location }

/-- `<place>: note: allocated here` -/
def readNote (text : Bytes) : Option SourceLocation := do
  let (first, rest) ← cutColon text
  if rest = lit "note: allocated here" then parseSite first else none

/-- The lines of a finding: its own, and a note if there is one. -/
def readFindingLines (indent : Bytes) : List Bytes → Option Finding
  | [head] => (stripStart indent head).bind readHead
  | [head, note] => do
      let finding ← (stripStart indent head).bind readHead
      let allocation ← (stripStart (indent ++ lit "  ") note).bind readNote
      some { finding with allocation := some allocation }
  | _ => none

/-- Lines of findings. A note is indented further. -/
def readFindings (indent : Bytes) (lines : List Bytes) : Option (List Finding) :=
  Blocks.readAll (startsWith · (indent ++ lit "  ")) (readFindingLines indent) lines

/-- A finding with a note, and one without a place. -/
example :
    readFindings (lit "  ")
        [lit "  a.c:3:5: error: heap-use-after-free READ of size 4 [heap-use-after-free, CWE-416]",
          lit "    a.c:2: note: allocated here",
          lit "  warning: memory leak of 16 bytes [memory-leak, CWE-401]"] =
      some
        [{ rule := lit "heap-use-after-free", cwe := lit "CWE-416", severity := .error
           message := lit "heap-use-after-free READ of size 4"
           location := some ⟨lit "a.c", 3, 5⟩
           allocation := some ⟨lit "a.c", 2, 0⟩ },
          { rule := lit "memory-leak", cwe := lit "CWE-401", severity := .warning
            message := lit "memory leak of 16 bytes" }] := by
  decide +kernel

/-! ## Pieces of a line -/

@[simp] theorem strip_start_append (start rest : Bytes) :
    stripStart start (start ++ rest) = some rest := by
  rw [stripStart, if_pos (startsWith_iff.mpr (List.prefix_append start rest)), List.drop_left]

/-- A text is cut at the first colon that a space follows. -/
theorem cut_colon_eq_some_iff {text first rest : Bytes} :
    cutColon text = some (first, rest) ↔
      text = first ++ lit ": " ++ rest ∧ ¬ lit ": " <:+: first := by
  constructor
  · intro h
    obtain ⟨pos, hfind, hcut⟩ := Option.map_eq_some_iff.mp h
    obtain ⟨rfl, rfl⟩ := Prod.mk.inj hcut
    obtain ⟨hle, ⟨more, hmore⟩, hbefore⟩ := ListSearch.find_eq_some_iff.mp hfind
    have hrest : text.drop (pos + 2) = more := by
      rw [← List.drop_drop, ← hmore]
      rfl
    refine ⟨?_, fun hwithin => ?_⟩
    · rw [hrest, List.append_assoc, hmore, List.take_append_drop]
    · obtain ⟨j, -, hj⟩ := ListSearch.infix_iff_prefix_drop.mp hwithin
      have hlt : j < pos := by
        have hlength := hj.length_le
        simp [show (lit ": ").length = 2 from rfl] at hlength
        omega
      refine hbefore j hlt ?_
      rw [← List.take_append_drop pos text, List.drop_append_of_le_length (by simp; omega)]
      exact hj.trans (List.prefix_append _ _)
  · rintro ⟨rfl, hfirst⟩
    have hfind := ListSearch.find_append rest (show lit ": " ≠ [] by decide)
      (show ¬ lit ": " <:+: first ++ [colon] from fun hwithin => hfirst ?_)
    · rw [cutColon, hfind]
      simp [show (lit ": ").length = 2 from rfl]
    · rw [show lit ": " = [colon] ++ [space] from rfl] at hwithin ⊢
      exact ListSearch.infix_of_infix_append hwithin (by decide)

/-! ## Places -/

/-- The text of the place shows where it ends: its file name has no colon with a space behind it,
and does not end in a number when there is no column. -/
structure PlainPlace (place : SourceLocation) : Prop where
  noColon : ¬ lit ": " <:+: place.file
  unnumbered : place.column = 0 → ¬ EndsInCount place.file

/-- What the places of reported findings have. -/
structure Sound (place : SourceLocation) : Prop extends SoundSite place, FromText place

theorem cut_site_text_iff {place : SourceLocation} :
    ¬ lit ": " <:+: siteText place ↔ ¬ lit ": " <:+: place.file := by
  have hlit : lit ": " = [colon] ++ [space] := rfl
  have hspace : space ∉ colon :: Decimal.render place.line ++
      if place.column ≠ 0 then colon :: Decimal.render place.column else [] := by
    have hline := Decimal.not_mem_render place.line (show Decimal.isDigit space = false by decide)
    have hcolumn :=
      Decimal.not_mem_render place.column (show Decimal.isDigit space = false by decide)
    have hcolon : space ≠ colon := by decide
    split <;> simp [hline, hcolumn, hcolon]
  rw [siteText, List.append_assoc, not_iff_not, hlit]
  constructor
  · exact fun hwithin => ListSearch.infix_of_infix_append hwithin hspace
  · exact fun hwithin => hwithin.trans (List.prefix_append _ _).isInfix

/-- The text of a place is read as the place unless it looks like one with a column. -/
theorem parse_site_text_iff {place : SourceLocation} (h : Sound place) :
    parseSite (siteText place) = some place ↔
      (place.column = 0 → ¬ EndsInCount place.file) := by
  constructor
  · rintro hparse hcolumn ⟨before, digits, hcount, hfile⟩
    have hread : Reads (siteText place) ⟨before, Decimal.value digits, place.line⟩ := by
      have hboth := Reads.both before hcount (is_count_render h.lineFits)
      rw [Decimal.value_render] at hboth
      simpa [siteText, hcolumn, hfile] using hboth
    rw [parse_site_of_reads hread] at hparse
    split at hparse
    · cases hparse
    · have hsame : place.line = place.column :=
        congrArg SourceLocation.column (Option.some.inj hparse)
      have hline := h.line
      omega
  · intro hplain
    rw [parse_site_of_reads (reads_site_text h.lineFits h.columnFits hplain),
      if_neg (not_or.mpr ⟨h.file, Nat.one_le_iff_ne_zero.mp h.line⟩)]

/-! ## Lines of findings -/

/-- The level as it is printed. -/
def levelText (severity : Severity) : Bytes :=
  if severity = .error then lit "error" else lit "warning"

/-- What stands in front of the message: the place, if there is one, and the level. -/
def opening (finding : Finding) : Bytes :=
  (finding.location.map printLocation).getD [] ++ levelText finding.severity ++ lit ": "

/-- The message and the names of the rule. -/
def title (finding : Finding) : Bytes :=
  finding.message ++ lit " [" ++ finding.rule ++ lit ", " ++ finding.cwe ++ lit "]"

theorem finding_line_eq (indent : Bytes) (finding : Finding) :
    findingLine indent finding = indent ++ (opening finding ++ title finding) := by
  have hlevel : (if finding.severity = .error then lit "error: " else lit "warning: ") =
      levelText finding.severity ++ lit ": " := by
    unfold levelText
    split <;> rfl
  rw [findingLine, hlevel, opening, title]
  simp only [List.append_assoc]

/-- Levels differ in their texts. -/
theorem read_level_eq_some_iff {text : Bytes} {severity : Severity} :
    Sarif.readLevel text = some severity ↔ text = levelText severity := by
  unfold Sarif.readLevel
  constructor
  · intro h
    split at h
    · cases h
      assumption
    · split at h
      · cases h
        assumption
      · cases h
  · rintro rfl
    cases severity <;> decide

/-- The names of a documented rule have no bracket, and the first has no comma. -/
theorem read_title {finding : Finding}
    (h : (finding.rule, finding.cwe, finding.severity) ∈ documented) :
    readTitle (title finding) = some (finding.message, finding.rule, finding.cwe) := by
  have hall : ∀ entry ∈ documented,
      bracket ∉ entry.1 ++ lit ", " ++ entry.2.1 ++ lit "]" ∧ 44 ∉ entry.1 := by decide +kernel
  obtain ⟨hbracket, hcomma⟩ := hall _ h
  have htitle : title finding = finding.message ++ [space] ++
      bracket :: (finding.rule ++ lit ", " ++ finding.cwe ++ lit "]") := by
    have hopen : lit " [" = [space] ++ [bracket] := rfl
    simp [title, hopen]
  have hnames : ((title finding).drop ((finding.message ++ [space]).length + 1)).dropLast =
      finding.rule ++ (lit ", " ++ finding.cwe) := by
    rw [htitle, ← List.drop_drop, List.drop_left]
    simp [show lit "]" = [93] from rfl, ← List.append_assoc]
  have hmessage : ((title finding).take (finding.message ++ [space]).length).dropLast =
      finding.message := by
    rw [htitle, List.take_left, List.dropLast_concat]
  have hfind : ListSearch.find (lit ", ") (finding.rule ++ (lit ", " ++ finding.cwe)) =
      some finding.rule.length := ListSearch.find_append_of_not_mem [space] finding.cwe hcomma
  have hlast : ListSearch.rfind [bracket] (title finding) =
      some (finding.message ++ [space]).length := by
    rw [htitle, ListSearch.rfind_append_of_not_mem _ hbracket]
  simp only [readTitle, hlast, Option.bind_eq_bind, Option.bind_some, hnames, hfind, hmessage]
  simp [show (lit ", ").length = 2 from rfl]

/-- What the places of a reported finding have, and the rule. -/
structure Reported (finding : Finding) : Prop where
  known : (finding.rule, finding.cwe, finding.severity) ∈ documented
  location : ∀ place, finding.location = some place → Sound place
  allocation : ∀ place, finding.allocation = some place → Sound place

/-- The places of the finding show where they end. -/
structure PlainPlaces (finding : Finding) : Prop where
  location : ∀ place, finding.location = some place → PlainPlace place
  allocation : ∀ place, finding.allocation = some place → PlainPlace place

/-- The text of a plain place is cut off and read. -/
theorem cut_place {place : SourceLocation} (h : Sound place) (hplain : PlainPlace place)
    (rest : Bytes) :
    cutColon (printLocation place ++ rest) = some (siteText place, rest) ∧
      parseSite (siteText place) = some place := by
  rw [cut_colon_eq_some_iff, cut_site_text_iff, parse_site_text_iff h, print_location_eq]
  exact ⟨⟨rfl, hplain.noColon⟩, hplain.unnumbered⟩

/-- Only a plain place is read off what is cut off first. -/
theorem plain_of_cut {place : SourceLocation} (h : Sound place) {first rest tail : Bytes}
    (hcut : cutColon (printLocation place ++ rest) = some (first, tail))
    (hparse : parseSite first = some place) : PlainPlace place := by
  have hfirst := (cut_colon_eq_some_iff.mp hcut).2
  -- The file of the place is in what was cut off, so the place was cut off as a whole.
  have hcolon : ¬ lit ": " <:+: place.file := fun hwithin =>
    hfirst (hwithin.trans (parse_site_file hparse).1.isInfix)
  have hwhole : cutColon (printLocation place ++ rest) = some (siteText place, rest) := by
    rw [cut_colon_eq_some_iff, cut_site_text_iff, print_location_eq]
    exact ⟨rfl, hcolon⟩
  rw [hwhole] at hcut
  cases hcut
  exact ⟨hcolon, (parse_site_text_iff h).mp hparse⟩

/-- The text of a place is no level. -/
theorem read_level_site_text (place : SourceLocation) :
    Sarif.readLevel (siteText place) = none := by
  have hcolon : colon ∈ siteText place := by simp [siteText]
  rw [Option.eq_none_iff_forall_ne_some]
  intro severity hlevel
  rw [read_level_eq_some_iff] at hlevel
  rw [hlevel] at hcolon
  cases severity <;> exact absurd hcolon (by decide)

/-- The level is read off the start of a line. -/
theorem cut_level (severity : Severity) (rest : Bytes) :
    cutColon (levelText severity ++ lit ": " ++ rest) = some (levelText severity, rest) :=
  cut_colon_eq_some_iff.mpr ⟨rfl, by cases severity <;> decide⟩

theorem opening_of_place {finding : Finding} {place : SourceLocation}
    (h : finding.location = some place) (rest : Bytes) :
    opening finding ++ rest =
      printLocation place ++ (levelText finding.severity ++ lit ": " ++ rest) := by
  simp [opening, h]

/-- The line of a finding is read exactly if its place is plain. -/
theorem read_head_iff {finding : Finding} (h : Reported finding) :
    readHead (opening finding ++ title finding) = some { finding with allocation := none } ↔
      ∀ place, finding.location = some place → PlainPlace place := by
  have hread : Sarif.readLevel (levelText finding.severity) = some finding.severity :=
    read_level_eq_some_iff.mpr rfl
  constructor
  · intro hreads place hplace
    have hsound := h.location place hplace
    obtain ⟨⟨location, severity, rest⟩, hopening, hreads⟩ := Option.bind_eq_some_iff.mp hreads
    obtain ⟨names, -, hsame⟩ := Option.bind_eq_some_iff.mp hreads
    obtain rfl : location = some place := by
      rw [← hplace]
      exact congrArg Finding.location (Option.some.inj hsame)
    rw [opening_of_place hplace] at hopening
    obtain ⟨⟨first, tail⟩, hcut, hmatch⟩ := Option.bind_eq_some_iff.mp hopening
    dsimp only at hmatch
    split at hmatch
    · cases hmatch
    · obtain ⟨site, hparse, hmatch⟩ := Option.bind_eq_some_iff.mp hmatch
      obtain ⟨level, -, hmatch⟩ := Option.bind_eq_some_iff.mp hmatch
      obtain ⟨_, -, hsite⟩ := Option.bind_eq_some_iff.mp hmatch
      cases hsite
      exact plain_of_cut hsound hcut hparse
  · intro hplain
    have hopening : readOpening (opening finding ++ title finding) =
        some (finding.location, finding.severity, title finding) := by
      cases hplace : finding.location with
      | none =>
          have hlevel : opening finding = levelText finding.severity ++ lit ": " := by
            simp [opening, hplace]
          rw [readOpening, hlevel, cut_level]
          simp [hread]
      | some place =>
          obtain ⟨hcut, hparse⟩ := cut_place (h.location place hplace) (hplain place hplace)
            (levelText finding.severity ++ lit ": " ++ title finding)
          simp only [readOpening, opening_of_place hplace, hcut, Option.bind_eq_bind,
            Option.bind_some, read_level_site_text, hparse, cut_level, hread]
    simp only [readHead, hopening, read_title h.known, Option.bind_eq_bind, Option.bind_some]

theorem read_head_allocation {text : Bytes} {finding : Finding}
    (h : readHead text = some finding) : finding.allocation = none := by
  obtain ⟨opening, -, h⟩ := Option.bind_eq_some_iff.mp h
  obtain ⟨names, -, hsame⟩ := Option.bind_eq_some_iff.mp h
  cases hsame
  rfl

/-- The note is read exactly if its place is plain. -/
theorem read_note_iff {place : SourceLocation} (h : Sound place) :
    readNote (printLocation place ++ lit "note: allocated here") = some place ↔
      PlainPlace place := by
  constructor
  · intro hreads
    obtain ⟨⟨first, rest⟩, hcut, hreads⟩ := Option.bind_eq_some_iff.mp hreads
    dsimp only at hreads
    split at hreads
    · exact plain_of_cut h hcut hreads
    · cases hreads
  · intro hplain
    obtain ⟨hcut, hparse⟩ := cut_place h hplain (lit "note: allocated here")
    simp only [readNote, hcut, Option.bind_eq_bind, Option.bind_some, if_true, hparse]

/-- The lines of a finding are read exactly if its places are plain. -/
theorem read_finding_lines_iff {finding : Finding} (h : Reported finding) (indent : Bytes) :
    readFindingLines indent (findingLines indent finding) = some finding ↔
      PlainPlaces finding := by
  have hhead := read_head_iff h
  cases hallocation : finding.allocation with
  | none =>
      have hsame : { finding with allocation := none } = finding := by rw [← hallocation]
      rw [hsame] at hhead
      rw [findingLines, noteLine, hallocation, finding_line_eq]
      simp only [Option.map_none, Option.toList_none, readFindingLines, strip_start_append,
        Option.bind_some, hhead]
      exact ⟨fun hplain => ⟨hplain, by simp [hallocation]⟩, PlainPlaces.location⟩
  | some place =>
      have hnote := read_note_iff (h.allocation place hallocation)
      have hline : indent ++ lit "  " ++ printLocation place ++ lit "note: allocated here" =
          indent ++ lit "  " ++ (printLocation place ++ lit "note: allocated here") := by simp
      rw [findingLines, noteLine, hallocation, finding_line_eq, Option.map_some, hline]
      simp only [Option.toList_some, readFindingLines, strip_start_append, Option.bind_some]
      constructor
      · intro hreads
        obtain ⟨found, hfound, hreads⟩ := Option.bind_eq_some_iff.mp hreads
        obtain ⟨site, hsite, hsame⟩ := Option.bind_eq_some_iff.mp hreads
        have hnone := read_head_allocation hfound
        obtain rfl : site = place := by
          have hallocated := congrArg Finding.allocation (Option.some.inj hsame)
          rw [hallocation] at hallocated
          exact Option.some.inj hallocated
        obtain rfl : found = { finding with allocation := none } := by
          rw [← Option.some.inj hsame, ← hnone]
        refine ⟨hhead.mp hfound, fun other hother => ?_⟩
        rw [hallocation] at hother
        cases hother
        exact hnote.mp hsite
      · intro hplain
        have hsame : { finding with allocation := some place } = finding := by
          rw [← hallocation]
        rw [hhead.mpr hplain.location]
        simp only [Option.bind_eq_bind, Option.bind_some,
          hnote.mpr (hplain.allocation place hallocation)]
        exact congrArg some hsame

/-! ## The findings of an output -/

/-- What the parser found can be read, as far as its places are plain. -/
theorem reported_of_parse {output : Bytes} {finding : Finding}
    (h : finding ∈ parseFindings output) :
    Reported finding := by
  have hpublishable := publishable_findings output finding h
  have hread := read_off_findings output finding h
  have hsound : ∀ {place}, SoundSite place → ReadOff place → Sound place := fun hsite hoff =>
    ⟨hsite, from_text_of_read_off hoff⟩
  exact ⟨hpublishable.known,
    fun place hplace => hsound (hpublishable.location place hplace) (hread.location place hplace),
    fun place hplace =>
      hsound (hpublishable.allocation place hplace) (hread.allocation place hplace)⟩

/-- A line of a finding is not indented as a note is. -/
theorem opening_head {finding : Finding} (h : Reported finding) :
    (opening finding).head? ≠ some space := by
  cases hplace : finding.location with
  | none =>
      have hlevel : opening finding = levelText finding.severity ++ lit ": " := by
        simp [opening, hplace]
      rw [hlevel]
      cases finding.severity <;> decide
  | some place =>
      have hsound := h.location place hplace
      rw [← List.append_nil (opening finding), opening_of_place hplace, print_location_eq, siteText]
      simp only [List.append_assoc]
      rw [List.head?_append_of_ne_nil _ hsound.file]
      exact hsound.head

theorem finding_lines_block {finding : Finding} (h : Reported finding) (indent : Bytes) :
    Blocks.IsBlock (startsWith · (indent ++ lit "  ")) (findingLines indent finding) := by
  refine .intro _ _ ?_ fun note hnote => ?_
  · rw [← Bool.not_eq_true, startsWith_iff, finding_line_eq, List.prefix_append_right_inj]
    rintro ⟨rest, hrest⟩
    have hopening : opening finding ≠ [] := by simp [opening]
    refine opening_head h ?_
    rw [← List.head?_append_of_ne_nil _ hopening, ← hrest]
    rfl
  · obtain ⟨place, -, rfl⟩ := Option.map_eq_some_iff.mp (Option.mem_toList.mp hnote)
    rw [startsWith_iff, List.append_assoc (indent ++ lit "  ")]
    exact List.prefix_append _ _

/-- The lines of findings are read exactly if all their places are plain. -/
theorem read_findings_iff {findings : List Finding} (h : ∀ finding ∈ findings, Reported finding)
    (indent : Bytes) :
    readFindings indent (findings.flatMap (findingLines indent)) = some findings ↔
      ∀ finding ∈ findings, PlainPlaces finding := by
  rw [readFindings,
    Blocks.readAll_flatMap fun finding hmem => finding_lines_block (h finding hmem) _]
  have hmap := @Blocks.mapM_eq_some_iff _ _ (fun finding : Finding =>
    readFindingLines indent (findingLines indent finding)) id findings
  rw [List.map_id] at hmap
  rw [hmap]
  exact forall₂_congr fun finding hmem => read_finding_lines_iff (h finding hmem) indent

/-- What the text summary says of the findings of an output is read back exactly if their places
show where they end. -/
theorem findings_read_back_iff (output : Bytes) :
    readFindings (lit "  ") (linesOf (printFindings (parseFindings output) (lit "  "))) =
        some (parseFindings output) ↔
      ∀ finding ∈ parseFindings output, PlainPlaces finding := by
  have honeLine : ∀ finding ∈ parseFindings output, OneLine finding := fun finding hmem =>
    one_line_of_publishable (publishable_findings output finding hmem)
  rw [lines_print_findings (by decide) honeLine]
  exact read_findings_iff (fun _ => reported_of_parse) (lit "  ")

end RuntimeAnalyzer
