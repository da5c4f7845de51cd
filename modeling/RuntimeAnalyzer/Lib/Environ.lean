import RuntimeAnalyzer.Lib.Search

/-!
# Environments

An environment is a list of entries, each a name, a separator and a value. A name is looked up in
the first entry that has it, and setting it replaces that entry or adds one. `get_assign` says what
a name is worth after a list of assignments: its last one counts, and a name without any keeps what
it was.
-/

namespace Environ

variable {α : Type*} [DecidableEq α] {sep : α}

/-- The value of an entry that has the name. -/
def valueOf (sep : α) (name entry : List α) : Option (List α) :=
  entry.dropPrefix? (name ++ [sep])

/-- The value of the first entry that has the name. -/
def get (sep : α) (environ : List (List α)) (name : List α) : Option (List α) :=
  environ.findSome? (valueOf sep name)

/-- Replaces the first entry that has the name, or adds one. -/
def set (sep : α) (name value : List α) : List (List α) → List (List α)
  | [] => [name ++ sep :: value]
  | entry :: rest =>
      if (valueOf sep name entry).isSome then (name ++ sep :: value) :: rest
      else entry :: set sep name value rest

/-- Sets each name in turn. -/
def assign (sep : α) (environ : List (List α)) (assignments : List (List α × List α)) :
    List (List α) :=
  assignments.foldl (fun environ assignment => set sep assignment.1 assignment.2 environ) environ

theorem value_of_eq_some_iff {name entry value : List α} :
    valueOf sep name entry = some value ↔ entry = name ++ sep :: value := by
  rw [valueOf, List.dropPrefix?_eq_some_iff]
  simp

/-- An entry has one name, as no name has a separator in it. -/
theorem value_of_other {name other : List α} (value : List α) (hname : sep ∉ name)
    (hother : sep ∉ other) (hne : name ≠ other) :
    valueOf sep other (name ++ sep :: value) = none := by
  rw [Option.eq_none_iff_forall_ne_some]
  intro found hfound
  rw [value_of_eq_some_iff] at hfound
  -- Both names end at the first separator.
  have hends := ListSearch.find_append_of_not_mem [] value hname
  have hends' := ListSearch.find_append_of_not_mem [] found hother
  rw [List.cons_append, List.nil_append] at hends hends'
  rw [hfound, hends', Option.some.injEq] at hends
  exact hne (List.append_inj hfound hends.symm).1

/-- The name that was set has its value. -/
theorem get_set_self (environ : List (List α)) (name value : List α) :
    get sep (set sep name value environ) name = some value := by
  have hself : valueOf sep name (name ++ sep :: value) = some value :=
    value_of_eq_some_iff.mpr rfl
  induction environ with
  | nil => simp [set, get, hself]
  | cons entry rest ih =>
      rw [set]
      split
      · simp [get, hself]
      · rename_i hnone
        rw [Bool.not_eq_true, Option.isSome_eq_false_iff, Option.isNone_iff_eq_none] at hnone
        rwa [get, List.findSome?_cons, hnone]

/-- Every other name keeps its value. -/
theorem get_set_other {name other : List α} (value : List α) (hname : sep ∉ name)
    (hother : sep ∉ other) (hne : name ≠ other) (environ : List (List α)) :
    get sep (set sep name value environ) other = get sep environ other := by
  have hskips := value_of_other value hname hother hne
  induction environ with
  | nil => simp [set, get, hskips]
  | cons entry rest ih =>
      rw [set]
      split
      · rename_i hsome
        obtain ⟨held, hheld⟩ := Option.isSome_iff_exists.mp hsome
        obtain rfl := value_of_eq_some_iff.mp hheld
        simp [get, hskips, value_of_other held hname hother hne]
      · simp only [get, List.findSome?_cons] at ih ⊢
        rw [ih]

/-- The last assignment of a name counts. -/
theorem get_assign {other : List α} (hother : sep ∉ other) {assignments : List (List α × List α)}
    (hnames : ∀ assignment ∈ assignments, sep ∉ assignment.1) (environ : List (List α)) :
    get sep (assign sep environ assignments) other =
      ((assignments.filter (·.1 = other)).getLast?.map (·.2)).or (get sep environ other) := by
  induction assignments generalizing environ with
  | nil => rfl
  | cons assignment rest ih =>
      have hfirst := hnames assignment List.mem_cons_self
      show get sep (assign sep (set sep assignment.1 assignment.2 environ) rest) other = _
      rw [ih fun later hmem => hnames later (List.mem_cons_of_mem assignment hmem)]
      by_cases hsame : assignment.1 = other
      · subst hsame
        rw [get_set_self, List.filter_cons_of_pos (by simp)]
        cases hlast : (rest.filter (·.1 = assignment.1)).getLast? with
        | none =>
            rw [List.getLast?_eq_none_iff] at hlast
            simp [hlast]
        | some last => simp [List.getLast?_cons, hlast]
      · rw [get_set_other _ hfirst hother hsame, List.filter_cons_of_neg (by simpa using hsame)]

end Environ
