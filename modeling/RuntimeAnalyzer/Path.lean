import Mathlib.Data.List.DropRight
import RuntimeAnalyzer.Text

/-!
# Paths

The part of `std::filesystem::path` the analyzer uses, on POSIX: a path is its native string, and
`/` is the only separator.
-/

namespace RuntimeAnalyzer

/-- `'/'` -/
abbrev slash : Byte := 47

/-- `'.'` -/
abbrev dot : Byte := 46

namespace Path

/-- `path.filename()`: what follows the last separator. -/
def filename (path : Bytes) : Bytes :=
  match ListSearch.rfind [slash] path with
  | none => path
  | some pos => path.drop (pos + 1)

/-- `path.extension()`: the file name from its last dot on, unless that dot starts it. -/
def extension (path : Bytes) : Bytes :=
  let name := filename path
  if name = [dot] ∨ name = [dot, dot] then []
  else
    match ListSearch.rfind [dot] name with
    | none => []
    | some 0 => []
    | some pos => name.drop pos

/-- `path.replace_extension()` without an argument: drops the extension. -/
def dropExtension (path : Bytes) : Bytes :=
  path.take (path.length - (extension path).length)

/-- `path.parent_path()`: the path without its last element and the separators before it. A path
that is only a root is its own parent. -/
def parentPath (path : Bytes) : Bytes :=
  if path.all (· = slash) then path
  else
    let directory := path.take (path.length - (filename path).length)
    let parent := directory.rdropWhile (· = slash)
    -- What is left of `/name` is the root.
    if parent = [] && directory ≠ [] then [slash] else parent

/-- `lhs / rhs` -/
def append (lhs rhs : Bytes) : Bytes :=
  if startsWith rhs [slash] then rhs
  else if lhs = [] ∨ endsWith lhs [slash] then lhs ++ rhs
  else lhs ++ [slash] ++ rhs

/-- The elements of the part of a path after its root: runs of separators count as one, and a
final separator leaves an empty last element. -/
def elements (path : Bytes) : List Bytes :=
  let pieces := (path.dropWhile (· = slash)).splitOn slash
  pieces.dropLast.filter (· ≠ []) ++ if pieces = [[]] then [] else [pieces.getLastD []]

/-- `path.generic_string()`: the path with a single separator between two elements. -/
def genericString (path : Bytes) : Bytes :=
  (if startsWith path [slash] then [slash] else []) ++ [slash].intercalate (elements path)

/-- The comparison of two strings by `std::string::compare`: bytewise, a prefix first. -/
def bytesLe : Bytes → Bytes → Bool
  | [], _ => true
  | _ :: _, [] => false
  | a :: as, b :: bs => if a < b then true else if b < a then false else bytesLe as bs

/-- The comparison of two lists of elements, each by `std::string::compare`. -/
def elementsLe : List Bytes → List Bytes → Bool
  | [], _ => true
  | _ :: _, [] => false
  | a :: as, b :: bs => if a = b then elementsLe as bs else bytesLe a b

/-- `!(rhs < lhs)` for paths: relative paths come before absolute ones, and otherwise the elements
are compared in order. -/
def le (lhs rhs : Bytes) : Bool :=
  match startsWith lhs [slash], startsWith rhs [slash] with
  | false, true => true
  | true, false => false
  | _, _ => elementsLe (elements lhs) (elements rhs)

/-- `lhs == rhs` for paths. -/
def equal (lhs rhs : Bytes) : Bool :=
  le lhs rhs && le rhs lhs

/-! ## A name in a directory -/

theorem starts_with_slash_eq_false {name : Bytes} (h : slash ∉ name) :
    startsWith name [slash] = false := by
  rw [← Bool.not_eq_true, startsWith_iff]
  exact fun hhead => h (hhead.subset (by simp))

theorem append_of_relative {name : Bytes} (directory : Bytes)
    (h : startsWith name [slash] = false) :
    append directory name =
      (if directory = [] ∨ endsWith directory [slash] then directory else directory ++ [slash]) ++
        name := by
  rw [append, if_neg (by simp [h])]
  split <;> rfl

theorem filename_of_not_mem {name : Bytes} (h : slash ∉ name) : filename name = name := by
  have hnone : ListSearch.rfind [slash] name = none :=
    ListSearch.rfind_eq_none_iff.mpr fun hin => h (hin.subset (by simp))
  rw [filename, hnone]

theorem filename_append_slash (directory : Bytes) {name : Bytes} (h : slash ∉ name) :
    filename (directory ++ slash :: name) = name := by
  simp only [filename, ListSearch.rfind_append_of_not_mem directory h]
  rw [List.append_cons, List.drop_left' (by simp)]

/-- A name after a directory without a final separator is an entry of it. -/
theorem parent_path_append_slash {directory name : Bytes} (hne : directory ≠ [])
    (hsep : endsWith directory [slash] = false) (h : slash ∉ name) :
    parentPath (directory ++ slash :: name) = directory := by
  have hlast : directory.getLast hne ≠ slash := by
    intro heq
    have hends : endsWith directory [slash] = true :=
      endsWith_iff.mpr ⟨directory.dropLast, by rw [← heq, List.dropLast_append_getLast]⟩
    rw [hends] at hsep
    cases hsep
  have hroot : (directory ++ slash :: name).all (· = slash) = false := by
    simp only [List.all_eq_false, decide_eq_true_eq]
    exact ⟨directory.getLast hne, by simp, hlast⟩
  have hdirectory : (directory ++ slash :: name).take
      ((directory ++ slash :: name).length - name.length) = directory ++ [slash] := by
    rw [List.append_cons]
    refine List.take_left' ?_
    simp only [List.length_append, List.length_cons, List.length_nil]
    omega
  have hparent : (directory ++ [slash]).rdropWhile (· = slash) = directory := by
    rw [List.rdropWhile_concat_pos _ _ _ (by simp)]
    exact List.rdropWhile_eq_self_iff.mpr fun _ => by simpa using hlast
  simp only [parentPath, hroot, filename_append_slash directory h, hdirectory, hparent]
  simp [hne]

end Path

end RuntimeAnalyzer
