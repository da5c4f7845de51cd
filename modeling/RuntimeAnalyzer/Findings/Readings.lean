import RuntimeAnalyzer.Findings.SiteText
import RuntimeAnalyzer.Report

/-!
# What fields and sites are read as

`Field` returns the value of the first piece of a line that is a field of the key
(`field_is_first_piece`), and `ParseSite` reads a place back from the text that `PrintLocation`
writes of it (`parse_site_inverts_text`). `Reads` is the grammar of sites, with the two numbers at
the end of the text.
-/

namespace RuntimeAnalyzer

/-! ## Fields -/

/-- What follows `key=` in the first piece of the line that starts with it. -/
def firstPieceValue (line key : Bytes) : Option Bytes :=
  ((line.splitOn space).find? (startsWith · (key ++ [equals]))).map (·.drop (key.length + 1))

/-- The lookup of the value is a lookup of the piece. -/
theorem find_some_field_of_word (key : Bytes) (pieces : List Bytes) :
    pieces.findSome? (fieldOfWord key) =
      (pieces.find? (startsWith · (key ++ [equals]))).map (·.drop (key.length + 1)) := by
  induction pieces with
  | nil => rfl
  | cons piece pieces ih =>
      cases hstarts : startsWith piece (key ++ [equals]) with
      | true =>
          have hfield : fieldOfWord key piece = some (piece.drop (key.length + 1)) :=
            if_pos (startsWith_iff.mp hstarts)
          simp [hfield, hstarts]
      | false =>
          have hfield : fieldOfWord key piece = none := by
            refine if_neg fun hbegins => ?_
            simp [startsWith_iff.mpr hbegins] at hstarts
          simp [hfield, hstarts, ih]

/-- Where a value that was read stands: after the key and `=`, between spaces or the ends of the
line, and after no other field of the key. -/
structure StandsIn (line key value : Bytes) : Prop where
  piece : ∃ before after, line = before ++ (key ++ equals :: value) ++ after ∧
    (before = [] ∨ before.getLast? = some space) ∧ (after = [] ∨ after.head? = some space)
  first : ∃ earlier later, line.splitOn space = earlier ++ (key ++ equals :: value) :: later ∧
    ∀ piece ∈ earlier, ¬ key ++ [equals] <+: piece
  whole : space ∉ value

theorem stands_in_of_first_piece {line key value : Bytes}
    (h : firstPieceValue line key = some value) : StandsIn line key value := by
  obtain ⟨piece, hfind, hvalue⟩ := Option.map_eq_some_iff.mp h
  obtain ⟨hstarts, earlier, later, hpieces, hearlier⟩ := List.find?_eq_some_iff_append.mp hfind
  obtain ⟨rest, hrest⟩ := startsWith_iff.mp hstarts
  have hpiece : piece = key ++ equals :: value := by
    rw [← hvalue, ← hrest, List.append_assoc, List.singleton_append]
    simp
  subst hpiece
  have hmem : key ++ equals :: value ∈ line.splitOn space := by simp [hpieces]
  obtain ⟨hspace, hstands⟩ := ListSplit.mem_splitOn hmem
  refine ⟨hstands, ⟨earlier, later, hpieces, fun other hother => ?_⟩, ?_⟩
  · have hpass := hearlier other hother
    rwa [Bool.not_eq_true', ← Bool.not_eq_true, startsWith_iff] at hpass
  · intro hmem
    exact hspace (by simp [hmem])

/-- `Field` is a lookup in the pieces of the line between single spaces. -/
theorem field_is_first_piece {key : Bytes} (hne : key ≠ []) (hspace : space ∉ key)
    (line : Bytes) :
    field line key = firstPieceValue line key ∧
      ∀ value, field line key = some value → StandsIn line key value := by
  have hlookup : field line key = firstPieceValue line key := by
    rw [field_eq_find_word hne hspace, find_some_field_of_word]
    rfl
  refine ⟨hlookup, fun value hvalue => stands_in_of_first_piece ?_⟩
  rw [← hlookup, hvalue]

/-- The site of a leak is not that of its allocation, nor the word in its value. -/
theorem field_is_first_piece_site :
    field (lit "site alloc_site=a.c:1 note=site=b.c:2 site=c.c:3") (lit "site") =
      some (lit "c.c:3") := by
  refine (field_is_first_piece (by decide) (by decide) _).1.trans ?_
  decide +kernel

/-! ## Sites -/

/-- The text ends in `:<number>`, the number below 2^32. -/
def EndsInCount (text : Bytes) : Prop :=
  ∃ before digits, IsCount digits ∧ text = before ++ colon :: digits

/-- The place that a text is read as, whether or not it is one that can be reported. -/
inductive Reads : Bytes → SourceLocation → Prop
  /-- `file:line:column` -/
  | both (file : Bytes) {line column : Bytes} (hline : IsCount line) (hcolumn : IsCount column) :
      Reads (file ++ colon :: line ++ colon :: column)
        ⟨file, Decimal.value line, Decimal.value column⟩
  /-- `file:line`, where the file does not end in a number itself. -/
  | line {file line : Bytes} (hfile : ¬ EndsInCount file) (hline : IsCount line) :
      Reads (file ++ colon :: line) ⟨file, Decimal.value line, 0⟩

theorem take_number_eq_none_iff {text : Bytes} : takeNumber text = none ↔ ¬ EndsInCount text := by
  rw [← not_iff_not, not_not, ← ne_eq, Option.ne_none_iff_exists']
  constructor
  · rintro ⟨⟨rest, n⟩, htake⟩
    obtain ⟨digits, hcount, htext, -⟩ := take_number_eq_some_iff.mp htake
    exact ⟨rest, digits, hcount, htext⟩
  · rintro ⟨before, digits, hcount, htext⟩
    rw [htext]
    exact ⟨_, take_number_count before hcount⟩

/-- A text that is read as a place is a site when there is a file and a line. -/
theorem parse_site_of_reads {text : Bytes} {location : SourceLocation} (h : Reads text location) :
    parseSite text =
      if location.file = [] ∨ location.line = 0 then none else some location := by
  cases h with
  | both file hline hcolumn =>
      simp only [parseSite, take_number_count _ hcolumn, take_number_count file hline]
  | line hfile hline =>
      simp only [parseSite, take_number_count _ hline, take_number_eq_none_iff.mpr hfile]

/-- The text of a place: what `PrintLocation` writes before the message. -/
def siteText (location : SourceLocation) : Bytes :=
  location.file ++ colon :: Decimal.render location.line ++
    if location.column ≠ 0 then colon :: Decimal.render location.column else []

theorem print_location_eq (location : SourceLocation) :
    printLocation location = siteText location ++ lit ": " := by
  have hcolon : lit ":" = [colon] := rfl
  simp [printLocation, siteText, hcolon]

/-- A place is read from its own text. -/
theorem reads_site_text {location : SourceLocation} (hline : location.line < UInt32.size)
    (hcolumn : location.column < UInt32.size)
    (hplain : location.column = 0 → ¬ EndsInCount location.file) :
    Reads (siteText location) location := by
  obtain ⟨file, line, column⟩ := location
  dsimp only at hline hcolumn hplain
  by_cases hzero : column = 0
  · subst hzero
    have hread := Reads.line (hplain rfl) (is_count_render hline)
    rw [Decimal.value_render] at hread
    simpa [siteText] using hread
  · have hread := Reads.both file (is_count_render hline) (is_count_render hcolumn)
    rw [Decimal.value_render, Decimal.value_render] at hread
    simpa [siteText, hzero] using hread

/-- What `ParseSite` makes of a text. -/
structure ReadsSites (text : Bytes) : Prop where
  /-- Without a number at its end the text is no site. -/
  numbered : ¬ EndsInCount text → parseSite text = none
  /-- A text with one is read as a place, and is a site unless the file is empty or the line 0. -/
  read : EndsInCount text → ∃ location, Reads text location
  sound : ∀ location, Reads text location →
    parseSite text = if location.file = [] ∨ location.line = 0 then none else some location

theorem reads_sites (text : Bytes) : ReadsSites text := by
  refine ⟨fun hplain => ?_, ?_, fun location hread => parse_site_of_reads hread⟩
  · simp only [parseSite, take_number_eq_none_iff.mpr hplain]
  · rintro ⟨before, column, hcolumn, rfl⟩
    by_cases hbefore : EndsInCount before
    · obtain ⟨file, line, hline, rfl⟩ := hbefore
      exact ⟨_, .both file hline hcolumn⟩
    · exact ⟨_, .line hbefore hcolumn⟩

/-- `ParseSite` reads a place back from its text, and rejects every text that names none. -/
theorem parse_site_inverts_text {location : SourceLocation} (hfile : location.file ≠ [])
    (hpos : 1 ≤ location.line) (hline : location.line < UInt32.size)
    (hcolumn : location.column < UInt32.size)
    (hplain : location.column = 0 → ¬ EndsInCount location.file) (text : Bytes) :
    printLocation location = siteText location ++ lit ": " ∧
      parseSite (siteText location) = some location ∧ ReadsSites text := by
  refine ⟨print_location_eq location, ?_, reads_sites text⟩
  rw [parse_site_of_reads (reads_site_text hline hcolumn hplain),
    if_neg (not_or.mpr ⟨hfile, Nat.one_le_iff_ne_zero.mp hpos⟩)]

/-- A file whose name ends in a number, with a line and a column. -/
theorem parse_site_inverts_text_numbered :
    parseSite (siteText ⟨lit "a:b:7", 3, 4⟩) = some ⟨lit "a:b:7", 3, 4⟩ :=
  (@parse_site_inverts_text ⟨lit "a:b:7", 3, 4⟩ (by decide) (by decide) (by decide) (by decide)
    (by simp) []).2.1

end RuntimeAnalyzer
