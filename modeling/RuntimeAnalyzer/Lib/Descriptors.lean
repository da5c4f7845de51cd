import Mathlib.Data.List.Basic

/-!
# Descriptor tables

The descriptors of a process: what each number is open for, and whether `exec` closes it. A new
descriptor has the lowest free number, a duplicate stays open over `exec`, and duplicating a
descriptor onto itself does nothing. `get` sees what an operation does to every number.
-/

namespace Descriptors

variable {File : Type*}

/-- What a descriptor is open for. -/
structure Entry (File : Type*) where
  file : File
  closeOnExec : Bool
  deriving DecidableEq, Repr

/-- The descriptors of a process, each at its number. -/
abbrev Table (File : Type*) := List (Option (Entry File))

/-- What a number is open for. -/
def get (table : Table File) (fd : Nat) : Option (Entry File) :=
  ((table)[fd]?).join

/-- The table with another entry at a number. -/
def set (table : Table File) (fd : Nat) (entry : Option (Entry File)) : Table File :=
  (table ++ List.replicate (fd + 1 - table.length) none).set fd entry

/-- The lowest number that is not open. -/
def lowest (table : Table File) : Nat :=
  table.findIdx (·.isNone)

/-- `open` or an end of `pipe`: the number, and the table with it. -/
def obtain (table : Table File) (file : File) : Nat × Table File :=
  (lowest table, set table (lowest table) (some ⟨file, false⟩))

/-- `close` -/
def close (table : Table File) (fd : Nat) : Table File :=
  set table fd none

/-- `fcntl` with `FD_CLOEXEC` -/
def setCloseOnExec (table : Table File) (fd : Nat) : Table File :=
  set table fd ((get table fd).map fun entry => { entry with closeOnExec := true })

/-- `dup2` -/
def dup2 (table : Table File) (fd target : Nat) : Table File :=
  if fd = target then table
  else
    match get table fd with
    | none => table
    | some entry => set table target (some ⟨entry.file, false⟩)

/-- What `exec` leaves open. -/
def exec (table : Table File) : Table File :=
  table.map fun entry => entry.filter (!·.closeOnExec)

/-! ## What the operations change -/

theorem get_set (table : Table File) (fd other : Nat) (entry : Option (Entry File)) :
    get (set table fd entry) other = if other = fd then entry else get table other := by
  have hpadded : get (table ++ List.replicate (fd + 1 - table.length) none) other =
      get table other := by
    unfold get
    rw [List.getElem?_append]
    split
    · rfl
    · rename_i hle
      have hnone : (table)[other]? = none := List.getElem?_eq_none (by omega)
      rw [hnone, List.getElem?_replicate]
      split <;> rfl
  split
  · rename_i hsame
    subst hsame
    rw [get, set, List.getElem?_set_self (by simp; omega)]
    rfl
  · rename_i hother
    rw [← hpadded, get, set, List.getElem?_set_ne (Ne.symm hother)]
    rfl

theorem get_close (table : Table File) (fd other : Nat) :
    get (close table fd) other = if other = fd then none else get table other :=
  get_set table fd other none

/-- A change of every entry that opens nothing. -/
theorem get_map {Other : Type*} {change : Option (Entry File) → Option (Entry Other)}
    (h : change none = none) (table : Table File) (fd : Nat) :
    get (table.map change) fd = change (get table fd) := by
  rw [get, List.getElem?_map, get]
  cases (table)[fd]? with
  | none => exact h.symm
  | some entry => rfl

theorem get_exec (table : Table File) (fd : Nat) :
    get (exec table) fd = (get table fd).filter (!·.closeOnExec) :=
  get_map rfl table fd

/-- A duplicate is open where the original is not already. -/
theorem get_dup2 {table : Table File} {fd : Nat} {file : File}
    (h : get table fd = some ⟨file, false⟩) (target other : Nat) :
    get (dup2 table fd target) other =
      if other = target then some ⟨file, false⟩ else get table other := by
  unfold dup2
  split
  · rename_i hsame
    subst hsame
    split
    · rename_i hother
      rw [hother, h]
    · rfl
  · rw [h]
    exact get_set table target other _

/-- The lowest number is free, and those below it are not. -/
theorem lowest_eq_iff {table : Table File} {fd : Nat} :
    lowest table = fd ↔ get table fd = none ∧ ∀ other < fd, get table other ≠ none := by
  have hfree : get table (lowest table) = none := by
    unfold get lowest
    by_cases hlt : table.findIdx (·.isNone) < table.length
    · have hnone := List.findIdx_getElem (w := hlt)
      rw [List.getElem?_eq_getElem hlt]
      simpa using hnone
    · rw [List.getElem?_eq_none (by omega)]
      rfl
  have hopen : ∀ other < lowest table, get table other ≠ none := by
    intro other hlt hnone
    have hlength : other < table.length := Nat.lt_of_lt_of_le hlt List.findIdx_le_length
    have hsome : ((table)[other]).isNone = false := by
      simpa using List.not_of_lt_findIdx hlt
    rw [get, List.getElem?_eq_getElem hlength, Option.join_some] at hnone
    rw [hnone] at hsome
    cases hsome
  constructor
  · rintro rfl
    exact ⟨hfree, hopen⟩
  · rintro ⟨hnone, hbelow⟩
    rcases Nat.lt_trichotomy (lowest table) fd with hlt | heq | hgt
    · exact absurd hfree (hbelow _ hlt)
    · exact heq
    · exact absurd hnone (hopen _ hgt)

end Descriptors
