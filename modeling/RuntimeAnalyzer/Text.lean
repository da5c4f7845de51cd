import RuntimeAnalyzer.Lib.Search
import RuntimeAnalyzer.Lib.Split

/-!
# Byte strings

The analyzer reads whatever bytes a program prints, so a `std::string` is a list of bytes and a
source literal is its UTF-8 encoding. The tests below are those the parsers make on a line.
-/

namespace RuntimeAnalyzer

/-- A `char` of the captured output. -/
abbrev Byte := UInt8

/-- A `std::string` or `std::string_view`. -/
abbrev Bytes := List Byte

/-- The bytes of a literal of the source, which is UTF-8. -/
def lit (s : String) : Bytes :=
  s.toList.flatMap String.utf8EncodeChar

/-- `'\n'` -/
abbrev newline : Byte := 10

/-- `' '` -/
abbrev space : Byte := 32

/-- `':'` -/
abbrev colon : Byte := 58

/-- `'='` -/
abbrev equals : Byte := 61

/-- `haystack.find(needle) != npos` -/
def contains (haystack needle : Bytes) : Bool :=
  (ListSearch.find needle haystack).isSome

/-- `line.starts_with(head)` -/
def startsWith (line head : Bytes) : Bool :=
  head.isPrefixOf line

/-- `line.ends_with(tail)` -/
def endsWith (line tail : Bytes) : Bool :=
  tail.isSuffixOf line

/-- The lines of a text, as the index loop of `ParseFindings` and `std::getline` both cut them. -/
def linesOf (text : Bytes) : List Bytes :=
  ListSplit.lines newline text

/-- A literal is empty only as written. -/
@[simp] theorem lit_eq_nil_iff (s : String) : lit s = [] ↔ s = "" := by
  rw [lit, List.flatMap_eq_nil_iff, ← String.toList_eq_nil_iff, List.eq_nil_iff_forall_not_mem]
  exact forall_congr' fun c => imp_congr_right fun _ => iff_of_false String.utf8EncodeChar_ne_nil id

theorem contains_iff {haystack needle : Bytes} : contains haystack needle ↔ needle <:+: haystack :=
  ListSearch.find_isSome_iff

theorem contains_eq_false_iff {haystack needle : Bytes} :
    contains haystack needle = false ↔ ¬ needle <:+: haystack := by
  rw [← contains_iff, Bool.not_eq_true]

theorem startsWith_iff {line head : Bytes} : startsWith line head ↔ head <+: line :=
  List.isPrefixOf_iff_prefix

theorem endsWith_iff {line tail : Bytes} : endsWith line tail ↔ tail <:+ line :=
  List.isSuffixOf_iff_suffix

end RuntimeAnalyzer
