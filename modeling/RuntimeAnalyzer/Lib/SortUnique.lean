import Mathlib.Data.List.Destutter
import Mathlib.Data.List.Sort

/-!
# Sorting and dropping repetitions

`sortUnique` sorts a list by a comparison and keeps the first of each run of equal elements, as
`std::sort` and `std::unique` do one after the other. Its result is strictly increasing
(`sort_unique_increasing`), and a list whose equal elements are the same has the same result in any
order and with any repetitions (`sort_unique_congr`). `lexLe` compares lists by their first
difference.
-/

namespace SortUnique

variable {α : Type*}

/-- The comparison orders any two elements one way or both. -/
structure TotalPreorder (le : α → α → Bool) : Prop where
  total : ∀ a b, le a b = true ∨ le b a = true
  trans : ∀ a b c, le a b = true → le b c = true → le a c = true

/-- The comparison orders different elements one way only. -/
structure Linear (le : α → α → Bool) : Prop extends TotalPreorder le where
  antisymm : ∀ a b, le a b = true → le b a = true → a = b

theorem TotalPreorder.refl {le : α → α → Bool} (hle : TotalPreorder le) (a : α) : le a a = true :=
  (hle.total a a).elim id id

/-! ## Lexicographic comparison -/

/-- The comparison of two lists by their first difference, a prefix first. -/
def lexLe [DecidableEq α] (le : α → α → Bool) : List α → List α → Bool
  | [], _ => true
  | _ :: _, [] => false
  | a :: as, b :: bs => if a = b then lexLe le as bs else le a b

theorem lex_le_total [DecidableEq α] {le : α → α → Bool} (hle : Linear le) (as bs : List α) :
    lexLe le as bs = true ∨ lexLe le bs as = true := by
  induction as generalizing bs with
  | nil => exact Or.inl rfl
  | cons a as ih =>
      cases bs with
      | nil => exact Or.inr rfl
      | cons b bs =>
          by_cases heq : a = b
          · simpa [lexLe, heq] using ih bs
          · simpa [lexLe, heq, Ne.symm heq] using hle.total a b

theorem lex_le_antisymm [DecidableEq α] {le : α → α → Bool} (hle : Linear le) (as bs : List α)
    (h : lexLe le as bs = true) (h' : lexLe le bs as = true) : as = bs := by
  induction as generalizing bs with
  | nil =>
      cases bs with
      | nil => rfl
      | cons b bs => cases h'
  | cons a as ih =>
      cases bs with
      | nil => cases h
      | cons b bs =>
          by_cases heq : a = b
          · subst heq
            simp only [lexLe, if_true] at h h'
            rw [ih bs h h']
          · simp only [lexLe, if_neg heq, if_neg (Ne.symm heq)] at h h'
            exact absurd (hle.antisymm a b h h') heq

theorem lex_le_trans [DecidableEq α] {le : α → α → Bool} (hle : Linear le) (as bs cs : List α)
    (h : lexLe le as bs = true) (h' : lexLe le bs cs = true) : lexLe le as cs = true := by
  induction as generalizing bs cs with
  | nil => rfl
  | cons a as ih =>
      cases bs with
      | nil => cases h
      | cons b bs =>
          cases cs with
          | nil => cases h'
          | cons c cs =>
              by_cases hab : a = b
              · subst hab
                by_cases hbc : a = c
                · subst hbc
                  simp only [lexLe, if_true] at h h' ⊢
                  exact ih bs cs h h'
                · simpa only [lexLe, if_neg hbc] using h'
              · simp only [lexLe, if_neg hab] at h
                by_cases hbc : b = c
                · subst hbc
                  simpa only [lexLe, if_neg hab] using h
                · simp only [lexLe, if_neg hbc] at h'
                  -- Were `a` and `c` the same, `a` and `b` would be.
                  have hac : a ≠ c := by
                    intro heq
                    subst heq
                    exact hab (hle.antisymm a b h h')
                  simpa only [lexLe, if_neg hac] using hle.trans a b c h h'

/-- Lists in a linear order are in one. -/
theorem Linear.lex [DecidableEq α] {le : α → α → Bool} (hle : Linear le) : Linear (lexLe le) where
  total := lex_le_total hle
  trans := lex_le_trans hle
  antisymm := lex_le_antisymm hle

/-! ## Sorting and dropping repetitions -/

variable (le : α → α → Bool)

/-- Neither element comes before the other. -/
def equal (a b : α) : Bool :=
  le a b && le b a

/-- The elements in order, the first of each run of equal ones. -/
def sortUnique (l : List α) : List α :=
  (l.insertionSort (le · ·)).destutter fun a b => equal le a b = false

variable {le}

theorem equal_iff {a b : α} : equal le a b = true ↔ le a b = true ∧ le b a = true :=
  Bool.and_eq_true _ _ ▸ Iff.rfl

theorem mem_of_mem_sort_unique {l : List α} {x : α} (h : x ∈ sortUnique le l) : x ∈ l :=
  (List.mem_insertionSort _).mp ((List.destutter_sublist _ _).subset h)

/-- Every element is kept, or one that is equal to it. -/
theorem exists_equal_of_mem (hle : TotalPreorder le) {l : List α} {x : α} (h : x ∈ l) :
    ∃ y ∈ sortUnique le l, equal le y x = true := by
  have hrefl : ∀ a, equal le a a = true := fun a => equal_iff.mpr ⟨hle.refl a, hle.refl a⟩
  have hrun : ∀ (rest : List α) (a : α), x ∈ a :: rest →
      ∃ y ∈ rest.destutter' (fun a b => equal le a b = false) a, equal le y x = true := by
    intro rest
    induction rest with
    | nil =>
        intro a hmem
        rw [List.mem_singleton.mp hmem]
        exact ⟨a, by simp, hrefl a⟩
    | cons b rest ih =>
        intro a hmem
        cases hequal : equal le a b with
        | false =>
            rw [List.destutter'_cons, if_pos hequal]
            rcases List.mem_cons.mp hmem with heq | hrest
            · exact ⟨a, by simp, heq ▸ hrefl a⟩
            · obtain ⟨y, hy, hyx⟩ := ih b hrest
              exact ⟨y, List.mem_cons_of_mem _ hy, hyx⟩
        | true =>
            rw [List.destutter'_cons, if_neg (by simp [hequal])]
            rcases List.mem_cons.mp hmem with heq | hrest
            · exact ih a (by simp [heq])
            rcases List.mem_cons.mp hrest with heq | hrest
            · exact ⟨a, List.mem_destutter' _ _ _, heq ▸ hequal⟩
            · exact ih a (List.mem_cons_of_mem _ hrest)
  have hsorted : x ∈ l.insertionSort (le · ·) := (List.mem_insertionSort _).mpr h
  unfold sortUnique
  revert hsorted
  cases l.insertionSort (le · ·) with
  | nil => exact fun h => by cases h
  | cons a rest => exact hrun rest a

/-- The first element of a list is kept, whatever is equal to it. -/
theorem head_mem_sort_unique (b : α) (l : List α) : b ∈ sortUnique le (b :: l) := by
  -- No element that the sort puts before `b` is equal to it.
  have hbefore : ∀ a ∈ (l.insertionSort (le · ·)).takeWhile fun a => ¬ le b a,
      equal le a b = false := by
    intro a hmem
    have hnot := List.all_eq_true.mp List.all_takeWhile a hmem
    simp only [Bool.not_eq_true, decide_eq_true_eq] at hnot
    simp only [equal, hnot, Bool.and_false]
  have hkept : ∀ (before after : List α) (a : α), equal le a b = false →
      (∀ a ∈ before, equal le a b = false) →
      b ∈ (before ++ b :: after).destutter' (fun a b => equal le a b = false) a := by
    intro before after
    induction before with
    | nil =>
        intro a ha _
        rw [List.nil_append, List.destutter'_cons, if_pos ha]
        exact List.mem_cons_of_mem _ (List.mem_destutter' _ _ _)
    | cons c before ih =>
        intro a ha hall
        rw [List.cons_append, List.destutter'_cons]
        split
        · exact List.mem_cons_of_mem _
            (ih c (hall c (by simp)) fun d hd => hall d (List.mem_cons_of_mem _ hd))
        · exact ih a ha fun d hd => hall d (List.mem_cons_of_mem _ hd)
  rw [sortUnique, List.insertionSort_cons, List.orderedInsert_eq_take_drop]
  revert hbefore
  cases (l.insertionSort (le · ·)).takeWhile fun a => ¬ le b a with
  | nil => exact fun _ => List.mem_destutter' _ _ _
  | cons a before =>
      intro hbefore
      exact hkept before _ a (hbefore a (by simp)) fun d hd =>
        hbefore d (List.mem_cons_of_mem _ hd)

/-- Each element comes before the next, and not the other way. -/
theorem sort_unique_increasing (hle : TotalPreorder le) (l : List α) :
    (sortUnique le l).Pairwise fun a b => le b a = false := by
  have htotal : Std.Total fun a b => le a b = true := ⟨hle.total⟩
  have htrans : IsTrans α fun a b => le a b = true := ⟨hle.trans⟩
  have hstrict : Trans (fun a b => le b a = false) (fun a b => le b a = false)
      fun a b : α => le b a = false := ⟨fun {a b c} hab hbc => by
    rw [← Bool.not_eq_true]
    intro hca
    have hbc' : le b c = true := (hle.total b c).resolve_right (by simp [hbc])
    simp [hle.trans b c a hbc' hca] at hab⟩
  have hsorted : (sortUnique le l).Pairwise fun a b => le a b = true :=
    (List.pairwise_insertionSort _ l).sublist (List.destutter_sublist _ _)
  have hchain : (sortUnique le l).IsChain fun a b => equal le a b = false :=
    List.isChain_destutter _ _
  refine List.isChain_iff_pairwise.mp (List.isChain_iff_getElem.mpr fun i hi => ?_)
  have hle' := List.pairwise_iff_getElem.mp hsorted i (i + 1) (by omega) hi (by omega)
  simpa [equal, hle'] using hchain.getElem i hi

/-- A list whose equal elements are the same keeps all of them. -/
theorem mem_sort_unique_iff (hle : TotalPreorder le) {l : List α}
    (hsame : ∀ x ∈ l, ∀ y ∈ l, equal le x y = true → x = y) {x : α} :
    x ∈ sortUnique le l ↔ x ∈ l := by
  refine ⟨mem_of_mem_sort_unique, fun h => ?_⟩
  obtain ⟨y, hy, hyx⟩ := exists_equal_of_mem hle h
  rwa [← hsame y (mem_of_mem_sort_unique hy) x h hyx]

/-- The order of such a list, and its repetitions, do not change the result. -/
theorem sort_unique_congr (hle : TotalPreorder le) {l l' : List α} (hmem : ∀ x, x ∈ l' ↔ x ∈ l)
    (hsame : ∀ x ∈ l, ∀ y ∈ l, equal le x y = true → x = y) :
    sortUnique le l' = sortUnique le l := by
  have hirrefl : Std.Irrefl fun a b => le b a = false := ⟨fun a => by simp [hle.refl a]⟩
  have hantisymm : Std.Antisymm fun a b => le b a = false := ⟨fun a b hba hab => by
    rcases hle.total a b with h | h
    · simp [h] at hab
    · simp [h] at hba⟩
  have hsame' : ∀ x ∈ l', ∀ y ∈ l', equal le x y = true → x = y := fun x hx y hy =>
    hsame x ((hmem x).mp hx) y ((hmem y).mp hy)
  refine (sort_unique_increasing hle l').eq_of_mem_iff (sort_unique_increasing hle l) fun x => ?_
  rw [mem_sort_unique_iff hle hsame', mem_sort_unique_iff hle hsame, hmem]

/-- Equal elements of the result are the same. -/
theorem eq_of_equal (hle : TotalPreorder le) {l : List α} {x y : α} (hx : x ∈ sortUnique le l)
    (hy : y ∈ sortUnique le l) (h : equal le x y = true) : x = y := by
  obtain ⟨hxy, hyx⟩ := equal_iff.mp h
  obtain ⟨i, hi, rfl⟩ := List.getElem_of_mem hx
  obtain ⟨j, hj, rfl⟩ := List.getElem_of_mem hy
  have hincreasing := List.pairwise_iff_getElem.mp (sort_unique_increasing hle l)
  rcases Nat.lt_trichotomy i j with hlt | heq | hgt
  · simp [hincreasing i j hi hj hlt] at hyx
  · subst heq
    rfl
  · simp [hincreasing j i hj hi hgt] at hxy

theorem nodup_sort_unique (hle : TotalPreorder le) (l : List α) : (sortUnique le l).Nodup :=
  (sort_unique_increasing hle l).imp fun {a b} h heq => by
    rw [heq, hle.refl] at h
    cases h

/-- What is counted once in a list without repetitions. -/
theorem count_eq_one_iff {l : List α} (hnodup : l.Nodup) (p : α → Bool) :
    l.countP p = 1 ↔ ∃ x ∈ l, p x = true ∧ ∀ y ∈ l, p y = true → y = x := by
  rw [List.countP_eq_length_filter, List.length_eq_one_iff]
  constructor
  · rintro ⟨x, hx⟩
    have hmem : ∀ y, y ∈ l ∧ p y = true ↔ y = x := fun y => by
      rw [← List.mem_filter, hx, List.mem_singleton]
    exact ⟨x, ((hmem x).mpr rfl).1, ((hmem x).mpr rfl).2, fun y hy hp => (hmem y).mp ⟨hy, hp⟩⟩
  · rintro ⟨x, hx, hp, hunique⟩
    refine ⟨x, List.perm_singleton.mp ((List.perm_ext_iff_of_nodup (hnodup.filter p)
      (List.nodup_singleton x)).mpr fun y => ?_)⟩
    rw [List.mem_filter, List.mem_singleton]
    exact ⟨fun h => hunique y h.1 h.2, fun h => h ▸ ⟨hx, hp⟩⟩

end SortUnique
