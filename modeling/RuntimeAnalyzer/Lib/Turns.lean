import Mathlib.Data.List.Nodup
import Mathlib.Data.List.TakeWhile

/-!
# Folds in which every element has one turn

The elements of a list act on a state in turn. `before` is the state that an element meets, so a
fold that reads the state at each turn is one that reads only the elements (`foldl_in_turns`). What
the last elements leave alone is at the end as it was before them (`foldl_of_rest`).
-/

namespace Turns

variable {α σ : Type*} (act : σ → α → σ)

/-- The state when the turn of an element comes. -/
def before [DecidableEq α] (start : σ) (elements : List α) (element : α) : σ :=
  (elements.takeWhile (· ≠ element)).foldl act start

theorem before_append [DecidableEq α] {done rest : List α} {element : α} (start : σ)
    (h : element ∉ done) :
    before act start (done ++ element :: rest) element = done.foldl act start := by
  have htaken : (done ++ element :: rest).takeWhile (· ≠ element) = done := by
    rw [List.takeWhile_append_of_pos, List.takeWhile_cons_of_neg (by simp), List.append_nil]
    intro other hmem
    simpa using fun heq : other = element => h (heq ▸ hmem)
  rw [before, htaken]

theorem before_of_split [DecidableEq α] (start : σ) {elements done rest : List α} {element : α}
    (hnodup : elements.Nodup) (hsplit : elements = done ++ element :: rest) :
    before act start elements element = done.foldl act start := by
  subst hsplit
  refine before_append act start fun hmem => ?_
  rw [List.nodup_append] at hnodup
  exact hnodup.2.2 element hmem element List.mem_cons_self rfl

/-- A fold of what is read in each turn, beside the state, is one of what the elements meet. -/
theorem foldl_in_turns [DecidableEq α] {β : Type*} (read : β → σ → α → β) (value : β) (start : σ)
    {elements : List α} (hnodup : elements.Nodup) :
    elements.foldl (fun (state : β × σ) element =>
        (read state.1 state.2 element, act state.2 element)) (value, start) =
      (elements.foldl (fun value element =>
          read value (before act start elements element) element) value,
        elements.foldl act start) := by
  -- The elements that had their turn stay in front of the rest.
  have hrest : ∀ (rest done : List α) (value : β), elements = done ++ rest →
      rest.foldl (fun (state : β × σ) element =>
          (read state.1 state.2 element, act state.2 element)) (value, done.foldl act start) =
        (rest.foldl (fun value element =>
            read value (before act start elements element) element) value,
          elements.foldl act start) := by
    intro rest
    induction rest with
    | nil =>
        intro done value hsplit
        rw [hsplit, List.append_nil]
        rfl
    | cons element rest ih =>
        intro done value hsplit
        have hturn := before_of_split act start hnodup hsplit
        have hnext := ih (done ++ [element]) (read value (done.foldl act start) element)
          (by rw [hsplit, List.append_assoc]; rfl)
        rw [List.foldl_append] at hnext
        rw [List.foldl_cons, List.foldl_cons, hturn]
        exact hnext
  exact hrest elements [] value rfl

/-- What the rest of the elements leave alone in their turns is at the end as it was before them. -/
theorem foldl_of_rest [DecidableEq α] {γ : Type*} (view : σ → γ) (start : σ) {elements : List α}
    (hnodup : elements.Nodup) {done rest : List α} (hsplit : elements = done ++ rest)
    (h : ∀ later ∈ rest, view (act (before act start elements later) later) =
      view (before act start elements later)) :
    view (elements.foldl act start) = view (done.foldl act start) := by
  induction rest generalizing done with
  | nil => rw [hsplit, List.append_nil]
  | cons later rest ih =>
      have hlater := h later List.mem_cons_self
      rw [before_of_split act start hnodup hsplit] at hlater
      rw [@ih (done ++ [later]) (by rw [hsplit, List.append_assoc]; rfl)
        (fun other hmem => h other (List.mem_cons_of_mem later hmem)), List.foldl_append]
      exact hlater

end Turns
