import Mathlib.Data.List.DropRight
import Mathlib.Data.List.ModifyLast

/-!
# Checked access

The operations of strings and vectors that are defined inside the bounds only, as functions that
fail outside of them: `substr` throws beyond the end, and an index, `back()` on nothing and a
difference below zero are worse. A function written with them and shown to be `some` of another one
stays inside the bounds on every input. `lastIdx?` is `find_last_not_of` for a predicate, and
`substr_trimmed` the trimming of a text by the positions of its first and last element to keep.
-/

namespace Access

variable {α : Type*}

/-- `text.substr(pos)` -/
def substr (text : List α) (pos : Nat) : Option (List α) :=
  if pos ≤ text.length then some (text.drop pos) else none

/-- `text.substr(pos, count)`; a count beyond the end stands for the rest. -/
def substrUpTo (text : List α) (pos count : Nat) : Option (List α) :=
  (substr text pos).map (·.take count)

/-- `text[pos]` -/
def index (text : List α) (pos : Nat) : Option α :=
  text[pos]?

/-- `first - second`, when it does not wrap. -/
def difference (first second : Nat) : Option Nat :=
  if second ≤ first then some (first - second) else none

/-- An assignment to `items.back()`. -/
def modifyBack (items : List α) (f : α → α) : Option (List α) :=
  if items = [] then none else some (items.modifyLast f)

/-- The position of the last element that passes the test. -/
def lastIdx? (keep : α → Bool) : List α → Option Nat
  | [] => none
  | a :: rest =>
      match lastIdx? keep rest with
      | some i => some (i + 1)
      | none => if keep a then some 0 else none

theorem substr_of_le {text : List α} {pos : Nat} (h : pos ≤ text.length) :
    substr text pos = some (text.drop pos) :=
  if_pos h

theorem substrUpTo_of_le {text : List α} {pos : Nat} (h : pos ≤ text.length) (count : Nat) :
    substrUpTo text pos count = some ((text.drop pos).take count) := by
  rw [substrUpTo, substr_of_le h]
  rfl

theorem substrUpTo_zero (text : List α) (count : Nat) :
    substrUpTo text 0 count = some (text.take count) :=
  substrUpTo_of_le (Nat.zero_le _) count

theorem difference_of_le {first second : Nat} (h : second ≤ first) :
    difference first second = some (first - second) :=
  if_pos h

theorem modifyBack_of_ne {items : List α} (h : items ≠ []) (f : α → α) :
    modifyBack items f = some (items.modifyLast f) :=
  if_neg h

/-! ## Trimming -/

variable {keep : α → Bool}

theorem lastIdx?_eq_none {l : List α} (h : lastIdx? keep l = none) :
    ∀ a ∈ l, keep a = false := by
  induction l with
  | nil => simp
  | cons a rest ih =>
      cases hrest : lastIdx? keep rest with
      | some i => simp [lastIdx?, hrest] at h
      | none =>
          rw [lastIdx?, hrest] at h
          have ha : keep a = false := by simpa using h
          exact List.forall_mem_cons.mpr ⟨ha, ih hrest⟩

/-- Dropping from the end of a list drops from the end of its tail first. -/
theorem rdropWhile_cons (drop : α → Bool) (a : α) (rest : List α) :
    (a :: rest).rdropWhile drop =
      if rest.rdropWhile drop = [] then [a].rdropWhile drop else a :: rest.rdropWhile drop := by
  simp only [List.rdropWhile, List.reverse_cons, List.dropWhile_append, List.isEmpty_iff,
    List.reverse_eq_nil_iff]
  split
  · rfl
  · rw [List.reverse_append, List.reverse_singleton, List.singleton_append]

/-- What stands up to the last element to keep. -/
theorem take_lastIdx? {l : List α} {i : Nat} (h : lastIdx? keep l = some i) :
    i < l.length ∧ l.take (i + 1) = l.rdropWhile fun a => !keep a := by
  induction l generalizing i with
  | nil => cases h
  | cons a rest ih =>
      rw [rdropWhile_cons]
      cases hrest : lastIdx? keep rest with
      | some j =>
          obtain ⟨hlt, htake⟩ := ih hrest
          simp only [lastIdx?, hrest, Option.some.injEq] at h
          subst h
          refine ⟨Nat.succ_lt_succ hlt, ?_⟩
          have hne : rest.rdropWhile (fun a => !keep a) ≠ [] := by
            rw [← htake, ← List.length_pos_iff, List.length_take]
            omega
          rw [if_neg hne, List.take_succ_cons, htake]
      | none =>
          have hnone : rest.rdropWhile (fun a => !keep a) = [] := by
            rw [List.rdropWhile_eq_nil_iff]
            intro b hb
            simp [lastIdx?_eq_none hrest b hb]
          simp only [lastIdx?, hrest, Option.ite_none_right_eq_some, Option.some.injEq] at h
          obtain ⟨ha, rfl⟩ := h
          refine ⟨Nat.zero_lt_succ _, ?_⟩
          rw [if_pos hnone]
          simp [List.rdropWhile, ha]

/-- The last element to keep is the last of every rest that still holds it. -/
theorem lastIdx?_drop {l : List α} {i : Nat} (h : lastIdx? keep l = some i) {pos : Nat}
    (hle : pos ≤ i) : lastIdx? keep (l.drop pos) = some (i - pos) := by
  induction l generalizing i pos with
  | nil => cases h
  | cons a rest ih =>
      cases pos with
      | zero => exact h
      | succ pos =>
          cases hrest : lastIdx? keep rest with
          | none =>
              simp only [lastIdx?, hrest, Option.ite_none_right_eq_some, Option.some.injEq] at h
              omega
          | some j =>
              simp only [lastIdx?, hrest, Option.some.injEq] at h
              subst h
              rw [List.drop_succ_cons, ih hrest (by omega), Nat.add_sub_add_right]

/-- An element to keep is not after the last one. -/
theorem le_lastIdx? {l : List α} {pos : Nat} {a : α} (hget : l[pos]? = some a)
    (ha : keep a = true) : ∃ i, lastIdx? keep l = some i ∧ pos ≤ i := by
  induction l generalizing pos with
  | nil => cases hget
  | cons b rest ih =>
      cases pos with
      | zero =>
          rw [List.getElem?_cons_zero, Option.some.injEq] at hget
          subst hget
          cases hrest : lastIdx? keep rest with
          | some j => exact ⟨j + 1, by simp [lastIdx?, hrest], Nat.zero_le _⟩
          | none => exact ⟨0, by simp [lastIdx?, hrest, ha], Nat.le_refl _⟩
      | succ pos =>
          obtain ⟨i, hlast, hle⟩ := ih (by simpa using hget)
          exact ⟨i + 1, by simp [lastIdx?, hlast], Nat.succ_le_succ hle⟩

/-- The rest from the first element to keep on. -/
theorem drop_findIdx? {l : List α} {pos : Nat} (h : l.findIdx? keep = some pos) :
    l.drop pos = l.dropWhile fun a => !keep a := by
  induction l generalizing pos with
  | nil => cases h
  | cons a rest ih =>
      rw [List.findIdx?_cons] at h
      cases ha : keep a with
      | true =>
          simp only [ha, if_true, Option.some.injEq] at h
          subst h
          simp [ha]
      | false =>
          simp only [ha, Bool.false_eq_true, if_false, Option.map_eq_some_iff] at h
          obtain ⟨pos, hrest, rfl⟩ := h
          simp [ha, ih hrest]

/-- A text with an element to keep, trimmed by positions: both differences are inside the text. -/
theorem substr_trimmed {l : List α} {first : Nat} (h : l.findIdx? keep = some first) :
    ∃ last, lastIdx? keep l = some last ∧ first ≤ last ∧ last < l.length ∧
      (l.drop first).take (last - first + 1) =
        (l.dropWhile fun a => !keep a).rdropWhile fun a => !keep a := by
  obtain ⟨hlt, hkeep, -⟩ := List.findIdx?_eq_some_iff_getElem.mp h
  obtain ⟨last, hlast, hle⟩ := le_lastIdx? (List.getElem?_eq_getElem hlt) hkeep
  refine ⟨last, hlast, hle, (take_lastIdx? hlast).1, ?_⟩
  rw [(take_lastIdx? (lastIdx?_drop hlast hle)).2, drop_findIdx? h]

end Access
