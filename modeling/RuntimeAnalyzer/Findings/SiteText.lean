import Mathlib.Data.List.TakeWhile
import RuntimeAnalyzer.Findings.Sites

/-!
# The text of a site

`Site` is a place as the runtime prints it, and `parse_site_text` the round trip: `parseSite` reads
the location of a site off its text.
-/

namespace RuntimeAnalyzer

/-- The text ends in `:<number>`. -/
def EndsInNumber (text : Bytes) : Prop :=
  ∃ before digits, text = before ++ colon :: digits ∧ digits ≠ [] ∧
    ∀ byte ∈ digits, Decimal.isDigit byte = true

/-- A place the runtime can name: `file:line[:column]`. -/
structure KnownSite where
  file : Bytes
  line : Nat
  column : Option Nat
  file_ne : file ≠ []
  no_space : space ∉ file
  no_newline : newline ∉ file
  line_pos : 1 ≤ line
  line_lt : line < UInt32.size
  column_lt : ∀ number ∈ column, number < UInt32.size
  /-- Without a column, a number at the end of the file name would be read as the line. -/
  not_number : column = none → ¬ EndsInNumber file

/-- A site of a report; the runtime does not know every place. -/
inductive Site
  | unknown
  | known (site : KnownSite)

namespace Site

/-- The last part of a site's text. -/
def columnText : Option Nat → Bytes
  | none => []
  | some column => colon :: Decimal.render column

/-- The site as the runtime prints it. -/
def text : Site → Bytes
  | unknown => lit "<unknown>"
  | known site => site.file ++ colon :: Decimal.render site.line ++ columnText site.column

/-- The place a finding shows for the site. -/
def location : Site → Option SourceLocation
  | unknown => none
  | known site => some ⟨site.file, site.line, site.column.getD 0⟩

end Site

/-- A number that `TakeNumber` takes: it fits in 32 bits. Leading zeros are allowed. -/
structure IsCount (digits : Bytes) : Prop where
  ne_nil : digits ≠ []
  digit : ∀ byte ∈ digits, Decimal.isDigit byte = true
  fits : Decimal.value digits < UInt32.size

/-- Reading all of a text reads a number. -/
theorem from_chars_whole_iff {text : Bytes} {n : Nat} :
    fromChars text = some (n, text.length) ↔ IsCount text ∧ Decimal.value text = n := by
  have hwhole : (text.takeWhile Decimal.isDigit).length = text.length ↔
      text.takeWhile Decimal.isDigit = text :=
    ⟨(List.takeWhile_prefix _).eq_of_length, congrArg _⟩
  have hall := @List.takeWhile_eq_self_iff _ Decimal.isDigit text
  constructor
  · intro h
    unfold fromChars at h
    dsimp only at h
    split at h
    · cases h
    · rename_i hdigits
      split at h
      · rename_i hfits
        obtain ⟨rfl, hlength⟩ := Prod.mk.inj (Option.some.inj h)
        have hsame := hwhole.mp hlength
        rw [hsame] at hdigits hfits
        exact ⟨⟨hdigits, hall.mp hsame, hfits⟩, congrArg _ hsame.symm⟩
      · cases h
  · rintro ⟨⟨hne, hdigit, hfits⟩, rfl⟩
    rw [fromChars, hall.mpr hdigit, if_neg hne, if_pos hfits]

/-- `takeNumber` takes off what follows the last colon, if that is a number. -/
theorem take_number_eq_some_iff {site rest : Bytes} {n : Nat} :
    takeNumber site = some (rest, n) ↔
      ∃ digits, IsCount digits ∧ site = rest ++ colon :: digits ∧ Decimal.value digits = n := by
  constructor
  · intro h
    unfold takeNumber at h
    cases hcolon : ListSearch.rfind [colon] site with
    | none => simp [hcolon] at h
    | some pos =>
        simp only [hcolon] at h
        cases hnumber : fromChars (site.drop (pos + 1)) with
        | none => simp [hnumber] at h
        | some read =>
            obtain ⟨value, taken⟩ := read
            simp only [hnumber] at h
            split at h
            · cases h
            · rename_i htaken
              rw [not_or, not_not] at htaken
              obtain ⟨rfl, rfl⟩ := Prod.mk.inj (Option.some.inj h)
              rw [htaken.2] at hnumber
              obtain ⟨hcount, hvalue⟩ := from_chars_whole_iff.mp hnumber
              refine ⟨site.drop (pos + 1), hcount, ?_, hvalue⟩
              obtain ⟨_, ⟨after, hafter⟩, _⟩ := ListSearch.rfind_eq_some_iff.mp hcolon
              have hrest : site.drop (pos + 1) = after := by
                rw [← List.drop_drop, ← hafter]
                rfl
              rw [hrest, ← List.singleton_append, hafter, List.take_append_drop]
  · rintro ⟨digits, hcount, rfl, rfl⟩
    have hcolon : colon ∉ digits := by
      intro hmem
      have hdigit := hcount.digit colon hmem
      exact absurd hdigit (by decide)
    have hdrop : (rest ++ colon :: digits).drop (rest.length + 1) = digits := by simp
    have hread := from_chars_whole_iff.mpr ⟨hcount, rfl⟩
    rw [takeNumber, ListSearch.rfind_append_of_not_mem rest hcolon]
    simp [hdrop, hread, hcount.ne_nil]

theorem take_number_count (before : Bytes) {digits : Bytes} (h : IsCount digits) :
    takeNumber (before ++ colon :: digits) = some (before, Decimal.value digits) :=
  take_number_eq_some_iff.mpr ⟨digits, h, rfl, rfl⟩

/-- A numeral that fits is a number. -/
theorem is_count_render {n : Nat} (h : n < UInt32.size) : IsCount (Decimal.render n) :=
  ⟨Decimal.render_ne_nil n, fun _ hbyte => Decimal.isDigit_of_mem_render hbyte,
    (Decimal.value_render n).symm ▸ h⟩

/-- `takeNumber` takes off a numeral that fits. -/
theorem take_number_render (before : Bytes) {n : Nat} (h : n < UInt32.size) :
    takeNumber (before ++ colon :: Decimal.render n) = some (before, n) := by
  rw [take_number_count before (is_count_render h), Decimal.value_render]

/-- `takeNumber` leaves a text that does not end in a number. -/
theorem take_number_eq_none {text : Bytes} (h : ¬ EndsInNumber text) : takeNumber text = none := by
  refine Option.eq_none_iff_forall_ne_some.mpr fun taken htaken => h ?_
  obtain ⟨digits, hcount, hsite, -⟩ := take_number_eq_some_iff.mp htaken
  exact ⟨taken.1, digits, hsite, hcount.ne_nil, hcount.digit⟩

/-- A site's location is read off its text. -/
theorem parse_site_text (site : Site) : parseSite site.text = site.location := by
  cases site with
  | unknown => decide
  | known site =>
      have hline : site.line ≠ 0 := Nat.one_le_iff_ne_zero.mp site.line_pos
      cases hcolumn : site.column with
      | none =>
          have hfile := take_number_eq_none (site.not_number hcolumn)
          simp [parseSite, Site.text, Site.location, hcolumn, Site.columnText,
            take_number_render site.file site.line_lt, hfile, site.file_ne, hline]
      | some column =>
          have hlt := site.column_lt column hcolumn
          have hlast := take_number_render (site.file ++ colon :: Decimal.render site.line) hlt
          have hfirst := take_number_render site.file site.line_lt
          rw [parseSite, Site.text, hcolumn, Site.columnText, hlast]
          simp [hfirst, Site.location, hcolumn, site.file_ne, hline]

/-! ## What a site's text is made of -/

/-- A byte that is no digit, no colon and not in the file name is not in the text. -/
theorem not_mem_known_text {site : KnownSite} {byte : Byte} (hfile : byte ∉ site.file)
    (hdigit : Decimal.isDigit byte = false) (hcolon : byte ≠ colon) :
    byte ∉ (Site.known site).text := by
  have hline := Decimal.not_mem_render site.line hdigit
  cases hcolumn : site.column with
  | none => simp [Site.text, Site.columnText, hcolumn, hfile, hline, hcolon]
  | some column =>
      have hlast := Decimal.not_mem_render column hdigit
      simp [Site.text, Site.columnText, hcolumn, hfile, hline, hcolon, hlast]

theorem space_not_mem_site_text (site : Site) : space ∉ site.text := by
  cases site with
  | unknown => decide
  | known site => exact not_mem_known_text site.no_space (by decide) (by decide)

theorem newline_not_mem_site_text (site : Site) : newline ∉ site.text := by
  cases site with
  | unknown => decide
  | known site => exact not_mem_known_text site.no_newline (by decide) (by decide)

/-- A site's text is not empty. -/
theorem site_text_ne_nil (site : Site) : site.text ≠ [] := by
  cases site <;> simp [Site.text, lit]

end RuntimeAnalyzer
