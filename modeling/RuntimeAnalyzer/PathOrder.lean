import RuntimeAnalyzer.Lib.SortUnique
import RuntimeAnalyzer.Path

/-!
# Order and names of paths

Paths are in a total order, and two of them are equal when their elements are and both or neither
starts at the root (`equal_iff`): neither repeated separators nor the spelling of a directory before
it are seen through. `elements_descend` gives the elements of an entry of a directory.
-/

namespace RuntimeAnalyzer

namespace Path

open SortUnique (Linear TotalPreorder lexLe)

/-! ## The order -/

theorem bytes_le_eq_lex (as bs : Bytes) :
    bytesLe as bs = lexLe (fun a b => decide (a ≤ b)) as bs := by
  induction as generalizing bs with
  | nil => rfl
  | cons a as ih =>
      cases bs with
      | nil => rfl
      | cons b bs =>
          simp only [bytesLe, lexLe, ih, UInt8.lt_iff_toNat_lt, UInt8.le_iff_toNat_le,
            ← UInt8.toNat_inj]
          split
          · rw [if_neg (by omega), decide_eq_true (by omega)]
          · split
            · rw [if_neg (by omega), decide_eq_false (by omega)]
            · rw [if_pos (by omega)]

theorem elements_le_eq_lex (as bs : List Bytes) : elementsLe as bs = lexLe bytesLe as bs := by
  induction as generalizing bs with
  | nil => rfl
  | cons a as ih =>
      cases bs with
      | nil => rfl
      | cons b bs => simp only [elementsLe, lexLe, ih]

theorem linear_bytes_le : Linear bytesLe := by
  have hbyte : Linear fun a b : Byte => decide (a ≤ b) :=
    { total := fun a b => by simpa using UInt8.le_total a b
      trans := fun a b c hab hbc => by
        simp only [decide_eq_true_eq] at *
        exact UInt8.le_trans hab hbc
      antisymm := fun a b hab hba => by
        simp only [decide_eq_true_eq] at *
        exact UInt8.le_antisymm hab hba }
  rw [show bytesLe = lexLe _ from funext fun as => funext fun bs => bytes_le_eq_lex as bs]
  exact hbyte.lex

theorem linear_elements_le : Linear elementsLe := by
  rw [show elementsLe = lexLe _ from funext fun as => funext fun bs => elements_le_eq_lex as bs]
  exact linear_bytes_le.lex

/-- What the order compares: the root, if any, as an element before the others. -/
def key (path : Bytes) : List Bytes :=
  (if startsWith path [slash] then [slash] else []) :: elements path

theorem le_eq_key (lhs rhs : Bytes) : le lhs rhs = elementsLe (key lhs) (key rhs) := by
  unfold le key
  cases startsWith lhs [slash] <;> cases startsWith rhs [slash] <;> simp [elementsLe, bytesLe]

theorem total_preorder_le : TotalPreorder le where
  total lhs rhs := by
    rw [le_eq_key, le_eq_key]
    exact linear_elements_le.total _ _
  trans lhs mid rhs h h' := by
    rw [le_eq_key] at *
    exact linear_elements_le.trans _ _ _ h h'

/-- Equal paths have the same elements, both under the root or neither. -/
theorem equal_iff {lhs rhs : Bytes} :
    equal lhs rhs = true ↔
      startsWith lhs [slash] = startsWith rhs [slash] ∧ elements lhs = elements rhs := by
  have hkey : key lhs = key rhs ↔
      startsWith lhs [slash] = startsWith rhs [slash] ∧ elements lhs = elements rhs := by
    unfold key
    cases startsWith lhs [slash] <;> cases startsWith rhs [slash] <;> simp
  rw [← hkey, equal, Bool.and_eq_true, le_eq_key, le_eq_key]
  constructor
  · rintro ⟨h, h'⟩
    exact linear_elements_le.antisymm _ _ h h'
  · intro h
    rw [h]
    exact ⟨linear_elements_le.toTotalPreorder.refl _, linear_elements_le.toTotalPreorder.refl _⟩

/-! ## Names -/

/-- The elements of a path but the empty one after a final separator. -/
def names (path : Bytes) : List Bytes :=
  (path.splitOn slash).filter (· ≠ [])

theorem names_append_slash (before after : Bytes) :
    names (before ++ slash :: after) = names before ++ names after := by
  rw [names, List.splitOn_append_cons_self, List.filter_append]
  rfl

theorem names_name {name : Bytes} (hne : name ≠ []) (hslash : slash ∉ name) :
    names name = [name] := by
  rw [names, List.splitOn_eq_singleton hslash]
  simp [hne]

theorem elements_slash (path : Bytes) : elements (slash :: path) = elements path := by
  simp [elements]

theorem elements_of_ne {byte : Byte} (path : Bytes) (h : byte ≠ slash) :
    elements (byte :: path) =
      ((byte :: path).splitOn slash).dropLast.filter (· ≠ []) ++
        [((byte :: path).splitOn slash).getLastD []] := by
  have hpieces : (byte :: path).splitOn slash ≠ [[]] := by
    intro heq
    have hjoin : [slash].intercalate ((byte :: path).splitOn slash) = byte :: path :=
      List.intercalate_splitOn slash
    rw [heq] at hjoin
    cases hjoin
  simp only [elements, List.dropWhile_cons, h, decide_false, Bool.false_eq_true, if_false,
    if_neg hpieces]

/-- The elements of a path are its names, and an empty element for a final separator. -/
theorem elements_eq_names (path : Bytes) :
    elements path = names path ∨ elements path = names path ++ [[]] := by
  induction path with
  | nil => exact Or.inl rfl
  | cons byte path ih =>
      by_cases hslash : byte = slash
      · subst hslash
        rw [elements_slash, show names (slash :: path) = names path from names_append_slash [] path]
        exact ih
      · have hne := List.splitOn_ne_nil slash (byte :: path)
        have hnames : names (byte :: path) =
            ((byte :: path).splitOn slash).dropLast.filter (· ≠ []) ++
              [((byte :: path).splitOn slash).getLast hne].filter (· ≠ []) := by
          rw [names, ← List.filter_append, List.dropLast_append_getLast]
        rw [elements_of_ne path hslash, hnames, List.getLastD_eq_getLast?,
          List.getLast?_eq_some_getLast hne, Option.getD_some]
        by_cases hlast : ((byte :: path).splitOn slash).getLast hne = []
        · exact Or.inr (by simp [hlast])
        · exact Or.inl (by simp [hlast])

theorem elements_append_slash (directory : Bytes) {name : Bytes} (hne : name ≠ [])
    (hslash : slash ∉ name) :
    elements (directory ++ slash :: name) = names directory ++ [name] := by
  induction directory with
  | nil =>
      rw [List.nil_append, elements_slash]
      obtain ⟨byte, rest, rfl⟩ := List.exists_cons_of_ne_nil hne
      rw [elements_of_ne rest (fun heq => hslash (by simp [heq])), List.splitOn_eq_singleton hslash]
      rfl
  | cons byte directory ih =>
      by_cases hbyte : byte = slash
      · subst hbyte
        rw [List.cons_append, elements_slash, ih,
          show names (slash :: directory) = names directory from names_append_slash [] directory]
      · rw [List.cons_append, elements_of_ne _ hbyte, ← List.cons_append,
          List.splitOn_append_cons_self, List.splitOn_eq_singleton hslash]
        simp [names]

/-! ## Entries of a directory -/

/-- The entry that names lead to from a directory. -/
def descend (directory : Bytes) (names : List Bytes) : Bytes :=
  names.foldl append directory

theorem descend_concat (directory : Bytes) (before : List Bytes) (name : Bytes) :
    descend directory (before ++ [name]) = append (descend directory before) name := by
  rw [descend, List.foldl_concat]
  rfl

/-- An entry of a directory is its name after a separator. -/
theorem append_eq_slash {directory name : Bytes} (hdirectory : directory ≠ [])
    (hslash : slash ∉ name) :
    ∃ before, append directory name = before ++ slash :: name ∧ names before = names directory := by
  rw [append_of_relative _ (starts_with_slash_eq_false hslash)]
  split
  · rename_i hends
    obtain ⟨before, hbefore⟩ := endsWith_iff.mp (hends.resolve_left hdirectory)
    refine ⟨before, by rw [← hbefore, List.append_assoc]; rfl, ?_⟩
    rw [← hbefore, names_append_slash]
    exact (List.append_nil _).symm
  · exact ⟨directory, by rw [List.append_assoc]; rfl, rfl⟩

theorem starts_with_slash_append {directory name : Bytes} (hdirectory : directory ≠ [])
    (hslash : slash ∉ name) :
    startsWith (append directory name) [slash] = startsWith directory [slash] := by
  obtain ⟨byte, rest, rfl⟩ := List.exists_cons_of_ne_nil hdirectory
  rw [append_of_relative _ (starts_with_slash_eq_false hslash)]
  split <;> simp [startsWith, List.isPrefixOf]

/-- What an entry looks like, any number of names below a directory. -/
theorem descend_shape {directory : Bytes} (hdirectory : directory ≠ []) (below : List Bytes)
    (hbelow : ∀ name ∈ below, name ≠ [] ∧ slash ∉ name) :
    descend directory below ≠ [] ∧ names (descend directory below) = names directory ++ below ∧
      startsWith (descend directory below) [slash] = startsWith directory [slash] := by
  induction below using List.reverseRecOn with
  | nil => exact ⟨hdirectory, (List.append_nil _).symm, rfl⟩
  | append_singleton before name ih =>
      obtain ⟨hne, hnames, hroot⟩ := ih fun other hmem => hbelow other (by simp [hmem])
      obtain ⟨hname, hslash⟩ := hbelow name (by simp)
      obtain ⟨front, hfront, hsame⟩ := append_eq_slash hne hslash
      rw [descend_concat]
      refine ⟨by simp [hfront], ?_, by rw [starts_with_slash_append hne hslash, hroot]⟩
      rw [hfront, names_append_slash, names_name hname hslash, hsame, hnames, List.append_assoc]

/-- The elements of an entry are the names of its directory and those below it. -/
theorem elements_descend {directory : Bytes} (hdirectory : directory ≠ []) {below : List Bytes}
    (hne : below ≠ []) (hbelow : ∀ name ∈ below, name ≠ [] ∧ slash ∉ name) :
    elements (descend directory below) = names directory ++ below := by
  obtain ⟨before, name, rfl⟩ := List.eq_nil_or_concat' below |>.resolve_left hne
  obtain ⟨hbefore, hnames, -⟩ :=
    descend_shape hdirectory before fun other hmem => hbelow other (by simp [hmem])
  obtain ⟨hname, hslash⟩ := hbelow name (by simp)
  obtain ⟨front, hfront, hsame⟩ := append_eq_slash hbefore hslash
  rw [descend_concat, hfront, elements_append_slash _ hname hslash, hsame, hnames,
    List.append_assoc]

/-- The file name of an entry is the last name below the directory. -/
theorem filename_descend {directory : Bytes} (hdirectory : directory ≠ []) {before : List Bytes}
    {name : Bytes} (hbelow : ∀ other ∈ before ++ [name], other ≠ [] ∧ slash ∉ other) :
    filename (descend directory (before ++ [name])) = name := by
  obtain ⟨hbefore, -⟩ :=
    descend_shape hdirectory before fun other hmem => hbelow other (by simp [hmem])
  have hslash : slash ∉ name := (hbelow name (by simp)).2
  obtain ⟨front, hfront, -⟩ := append_eq_slash hbefore hslash
  rw [descend_concat, hfront, filename_append_slash front hslash]

end Path

end RuntimeAnalyzer
