import Mathlib.Data.List.Infix

/-!
# Substring search in lists

`find` and `rfind` give the first and the last position at which one list occurs in another, as
`std::string_view::find` and `rfind` do. `find_eq_some_iff` and `rfind_eq_some_iff` characterize
them by prefixes of suffixes, and `find_isSome_iff` by `List.IsInfix`. The remaining lemmas locate
an occurrence inside an append.
-/

namespace ListSearch

variable {α : Type*} [DecidableEq α]

/-- The first position at which `needle` occurs. -/
def find (needle : List α) : List α → Option Nat
  | [] => if needle = [] then some 0 else none
  | a :: rest => if needle <+: a :: rest then some 0 else (find needle rest).map (· + 1)

/-- The last position at which `needle` occurs. -/
def rfind (needle : List α) : List α → Option Nat
  | [] => if needle = [] then some 0 else none
  | a :: rest =>
      match rfind needle rest with
      | some i => some (i + 1)
      | none => if needle <+: a :: rest then some 0 else none

/-- `find` returns the least position at which the needle is a prefix of the rest. -/
theorem find_eq_some_iff {needle l : List α} {i : Nat} :
    find needle l = some i ↔
      i ≤ l.length ∧ needle <+: l.drop i ∧ ∀ j < i, ¬ needle <+: l.drop j := by
  induction l generalizing i with
  | nil =>
      by_cases h : needle = []
      · simp only [find, h, if_true, Option.some.injEq, List.length_nil, Nat.le_zero,
          List.drop_nil, List.nil_prefix, not_true_eq_false, true_and]
        constructor
        · rintro rfl
          exact ⟨rfl, fun j hj => absurd hj (Nat.not_lt_zero j)⟩
        · exact fun hi => hi.1.symm
      · simp [find, h]
  | cons a rest ih =>
      -- An occurrence at the front is the least; without one, every position moves on by one.
      by_cases h : needle <+: a :: rest
      · simp only [find, h, if_true, Option.some.injEq]
        constructor
        · rintro rfl
          exact ⟨Nat.zero_le _, h, fun j hj => absurd hj (Nat.not_lt_zero j)⟩
        · rintro ⟨_, _, hleast⟩
          by_contra hi
          exact hleast 0 (by omega) h
      · cases i with
        | zero => simp [find, h]
        | succ i =>
            simp only [find, h, if_false, Option.map_eq_some_iff, Nat.add_right_cancel_iff,
              exists_eq_right, ih, List.length_cons, Nat.add_le_add_iff_right,
              List.drop_succ_cons]
            refine and_congr_right fun _ => and_congr_right fun _ => ?_
            constructor
            · intro hleast j hj
              cases j with
              | zero => exact h
              | succ j => exact hleast j (by omega)
            · exact fun hleast j hj => hleast (j + 1) (by omega)

/-- The occurrence that `find` returns ends inside the list. -/
theorem find_add_length_le {needle l : List α} {i : Nat} (h : find needle l = some i) :
    i + needle.length ≤ l.length := by
  obtain ⟨hle, hpre, -⟩ := find_eq_some_iff.mp h
  have hlength := hpre.length_le
  rw [List.length_drop] at hlength
  omega

omit [DecidableEq α] in
/-- An infix is a prefix of what follows some position. -/
theorem infix_iff_prefix_drop {needle l : List α} :
    needle <:+: l ↔ ∃ i ≤ l.length, needle <+: l.drop i := by
  constructor
  · rintro ⟨before, after, rfl⟩
    exact ⟨before.length, by simp, by simp⟩
  · rintro ⟨i, _, hpre⟩
    exact hpre.isInfix.trans (l.drop_suffix i).isInfix

/-- `find` fails exactly on lists without the needle. -/
theorem find_eq_none_iff {needle l : List α} : find needle l = none ↔ ¬ needle <:+: l := by
  induction l with
  | nil => by_cases h : needle = [] <;> simp [find, h]
  | cons a rest ih =>
      by_cases h : needle <+: a :: rest <;> simp [find, h, ih, List.infix_cons_iff]

/-- `find` succeeds exactly on lists with the needle. -/
theorem find_isSome_iff {needle l : List α} : (find needle l).isSome ↔ needle <:+: l := by
  rw [Option.isSome_iff_ne_none, ne_eq, find_eq_none_iff, not_not]

/-- `rfind` fails exactly on lists without the needle. -/
theorem rfind_eq_none_iff {needle l : List α} : rfind needle l = none ↔ ¬ needle <:+: l := by
  induction l with
  | nil => by_cases h : needle = [] <;> simp [rfind, h]
  | cons a rest ih =>
      cases hr : rfind needle rest with
      | some i =>
          have hin : needle <:+: rest := by
            by_contra hno
            simp [ih.mpr hno] at hr
          simp [rfind, hr, List.infix_cons_iff, hin]
      | none =>
          by_cases h : needle <+: a :: rest <;>
            simp [rfind, hr, h, ih.mp hr, List.infix_cons_iff]

/-- `rfind` returns the greatest position at which the needle is a prefix of the rest. -/
theorem rfind_eq_some_iff {needle l : List α} {i : Nat} :
    rfind needle l = some i ↔
      i ≤ l.length ∧ needle <+: l.drop i ∧ ∀ j ≤ l.length, i < j → ¬ needle <+: l.drop j := by
  induction l generalizing i with
  | nil =>
      by_cases h : needle = []
      · simp only [rfind, h, if_true, Option.some.injEq, List.length_nil, Nat.le_zero,
          List.drop_nil, List.nil_prefix, not_true_eq_false, true_and]
        constructor
        · rintro rfl
          exact ⟨rfl, by omega⟩
        · exact fun hi => hi.1.symm
      · simp [rfind, h]
  | cons a rest ih =>
      -- A later occurrence wins over one at the front.
      cases hr : rfind needle rest with
      | some k =>
          obtain ⟨hk, hpre, hlast⟩ := ih.mp hr
          simp only [rfind, hr, Option.some.injEq]
          constructor
          · rintro rfl
            refine ⟨by simpa using hk, by simpa using hpre, fun j hj hkj => ?_⟩
            obtain ⟨j, rfl⟩ : ∃ j', j = j' + 1 := ⟨j - 1, by omega⟩
            exact hlast j (by simpa using hj) (by omega)
          · rintro ⟨hi, hipre, hilast⟩
            by_contra hne
            rcases Nat.lt_or_ge i (k + 1) with hlt | hge
            · exact hilast (k + 1) (by simpa using hk) hlt (by simpa using hpre)
            · obtain ⟨i, rfl⟩ : ∃ i', i = i' + 1 := ⟨i - 1, by omega⟩
              exact hlast i (by simpa using hi) (by omega) (by simpa using hipre)
      | none =>
          have hno : ∀ j ≤ rest.length, ¬ needle <+: rest.drop j := fun j hj hpre =>
            rfind_eq_none_iff.mp hr (infix_iff_prefix_drop.mpr ⟨j, hj, hpre⟩)
          simp only [rfind, hr]
          constructor
          · intro h
            split at h
            · cases h
              refine ⟨Nat.zero_le _, by assumption, fun j hj hpos => ?_⟩
              obtain ⟨j, rfl⟩ : ∃ j', j = j' + 1 := ⟨j - 1, by omega⟩
              exact hno j (by simpa using hj)
            · cases h
          · rintro ⟨hi, hpre, _⟩
            cases i with
            | zero => rw [if_pos (by simpa using hpre)]
            | succ i => exact absurd (by simpa using hpre) (hno i (by simpa using hi))

theorem rfind_add_length_le {needle l : List α} {i : Nat} (h : rfind needle l = some i) :
    i + needle.length ≤ l.length := by
  obtain ⟨hle, hpre, -⟩ := rfind_eq_some_iff.mp h
  have hlength := hpre.length_le
  rw [List.length_drop] at hlength
  omega

/-- The first occurrence sits at the end of `before` when the needle occurs in no earlier place:
not in `before` followed by all of the needle but its last element. -/
theorem find_append {before needle : List α} (after : List α) (hne : needle ≠ [])
    (hfirst : ¬ needle <:+: before ++ needle.dropLast) :
    find needle (before ++ needle ++ after) = some before.length := by
  rw [find_eq_some_iff]
  refine ⟨by simp, by simp, fun j hj hpre => hfirst ?_⟩
  have hdrop : (before ++ needle ++ after).drop j =
      (before ++ needle.dropLast).drop j ++ (needle.getLast hne :: after) := by
    rw [← List.drop_append_of_le_length (by simp; omega)]
    congr 1
    rw [List.append_assoc, List.append_assoc, List.append_cancel_left_eq,
      ← List.singleton_append, ← List.append_assoc, List.dropLast_append_getLast]
  rw [hdrop] at hpre
  have hlen : needle.length ≤ ((before ++ needle.dropLast).drop j).length := by
    have := List.length_pos_of_ne_nil hne
    simp only [List.length_drop, List.length_append, List.length_dropLast]
    omega
  exact (List.prefix_of_prefix_length_le hpre (List.prefix_append _ _) hlen).isInfix.trans
    ((before ++ needle.dropLast).drop_suffix j).isInfix

/-- The first occurrence sits at the end of `before` when the needle's first element occurs in no
earlier place. -/
theorem find_append_of_not_mem {a : α} {before : List α} (needle after : List α)
    (h : a ∉ before) :
    find (a :: needle) (before ++ (a :: needle ++ after)) = some before.length := by
  induction before with
  | nil => simp [find]
  | cons b before ih =>
      have hne : a ≠ b := fun heq => h (by simp [heq])
      rw [List.cons_append, find, if_neg fun hpre => hne (List.cons_prefix_cons.mp hpre).1,
        ih fun hmem => h (List.mem_cons_of_mem b hmem)]
      rfl

theorem find_singleton_cons (a b : α) (rest : List α) :
    find [a] (b :: rest) = if a = b then some 0 else (find [a] rest).map (· + 1) := by
  simp [find]

/-- What stands before the first occurrence of an element. -/
theorem take_find_singleton (a : α) (l : List α) :
    l.take ((find [a] l).getD l.length) = l.takeWhile (· ≠ a) := by
  induction l with
  | nil => rfl
  | cons b rest ih =>
      rw [find_singleton_cons]
      by_cases hb : a = b
      · simp [hb]
      · have hne : b ≠ a := fun heq => hb heq.symm
        cases hfind : find [a] rest with
        | none => simpa [hb, hne, hfind] using ih
        | some i => simpa [hb, hne, hfind] using ih

/-- A list with an element, cut at its first occurrence. -/
theorem find_singleton_eq_some {a : α} {l : List α} {i : Nat} (h : find [a] l = some i) :
    l = l.take i ++ a :: l.drop (i + 1) ∧ a ∉ l.take i := by
  have htake := take_find_singleton a l
  rw [h, Option.getD_some] at htake
  constructor
  · obtain ⟨_, ⟨after, hafter⟩, _⟩ := find_eq_some_iff.mp h
    have hrest : l.drop (i + 1) = after := by
      rw [← List.drop_drop, ← hafter]
      rfl
    rw [hrest, ← List.singleton_append, hafter, List.take_append_drop]
  · intro hmem
    rw [htake] at hmem
    simpa using List.all_eq_true.mp List.all_takeWhile a hmem

/-- The last occurrence of an element is followed by none. -/
theorem rfind_append_of_not_mem {a : α} (before : List α) {after : List α} (h : a ∉ after) :
    rfind [a] (before ++ a :: after) = some before.length := by
  rw [rfind_eq_some_iff]
  refine ⟨by simp, by simp, fun j hj hlt hpre => h ?_⟩
  have hdrop : (before ++ a :: after).drop j = after.drop (j - (before.length + 1)) := by
    rw [List.append_cons, List.drop_append, List.drop_eq_nil_of_le (by simp; omega)]
    simp
  rw [hdrop] at hpre
  exact List.mem_of_mem_drop (hpre.subset (by simp))

/-- A nonempty suffix is the last occurrence. -/
theorem rfind_append_self {before needle : List α} (hne : needle ≠ []) :
    rfind needle (before ++ needle) = some before.length := by
  rw [rfind_eq_some_iff]
  refine ⟨by simp, by simp, fun j hj hlt hpre => ?_⟩
  have hlen := hpre.length_le
  have := List.length_pos_of_ne_nil hne
  simp only [List.length_drop, List.length_append] at hlen
  omega

omit [DecidableEq α] in
/-- An infix that ends in an element which is not in the rest lies in front of the rest. -/
theorem infix_of_infix_append {before first rest : List α} {last : α}
    (h : before ++ [last] <:+: first ++ rest) (hlast : last ∉ rest) :
    before ++ [last] <:+: first := by
  induction rest using List.reverseRecOn with
  | nil => simpa using h
  | append_singleton rest a ih =>
      rw [List.mem_append, List.mem_singleton, not_or] at hlast
      rw [← List.append_assoc, List.infix_concat_iff] at h
      rcases h with hsuffix | hwithin
      · obtain ⟨more, hmore⟩ := hsuffix
        rw [← List.append_assoc] at hmore
        exact absurd (List.singleton_inj.mp (List.append_inj' hmore rfl).2) hlast.2
      · exact ih hwithin hlast.1

end ListSearch
