import Mathlib.Data.List.Induction

/-!
# Runs of a partial step function

A system is a step function `σ → ε → Option σ`: what an event does in a state, or nothing when it
cannot happen there. `run` follows a list of events. The rules below are the inductions over runs,
made once: `run_invariant` for a property of states (`run_invariant_on` in runs of certain events),
`run_history` for a property of states and the events so far, and `every_state_iff_every_step` for
a property that each step keeps exactly under a condition of its own.
-/

namespace Transition

variable {σ ε : Type*} {step : σ → ε → Option σ}

/-- The state after a list of events, if each of them can happen in its turn. -/
def run (step : σ → ε → Option σ) (state : σ) : List ε → Option σ
  | [] => some state
  | event :: events => (step state event).bind (run step · events)

/-- The property holds of the state after every part of the run. -/
def EveryState (step : σ → ε → Option σ) (P : σ → Prop) (state : σ) (events : List ε) : Prop :=
  ∀ before after middle, events = before ++ after → run step state before = some middle → P middle

/-- The property holds of every step of the run. -/
def EveryStep (step : σ → ε → Option σ) (P : σ → ε → σ → Prop) (state : σ) (events : List ε) :
    Prop :=
  ∀ before event after middle next, events = before ++ event :: after →
    run step state before = some middle → step middle event = some next → P middle event next

@[simp] theorem run_nil (state : σ) : run step state [] = some state := rfl

theorem run_cons_eq_some_iff {state final : σ} {event : ε} {events : List ε} :
    run step state (event :: events) = some final ↔
      ∃ next, step state event = some next ∧ run step next events = some final := by
  rw [run, Option.bind_eq_some_iff]

theorem run_append (state : σ) (first second : List ε) :
    run step state (first ++ second) = (run step state first).bind (run step · second) := by
  induction first generalizing state with
  | nil => rfl
  | cons event first ih =>
      rw [List.cons_append, run, run]
      cases step state event with
      | none => rfl
      | some next => exact ih next

/-- One more event at the end of a run. -/
theorem run_concat_eq_some_iff {state final : σ} {event : ε} {events : List ε} :
    run step state (events ++ [event]) = some final ↔
      ∃ middle, run step state events = some middle ∧ step middle event = some final := by
  rw [run_append, Option.bind_eq_some_iff]
  refine exists_congr fun middle => and_congr_right fun _ => ?_
  rw [run_cons_eq_some_iff]
  simp

/-- What every step on certain events preserves holds at the end of a run of such events. -/
theorem run_invariant_on {I : σ → Prop} {C : ε → Prop}
    (hstep : ∀ {state event next}, C event → I state → step state event = some next → I next)
    {state final : σ} {events : List ε} (hevents : ∀ event ∈ events, C event) (hstart : I state)
    (hrun : run step state events = some final) : I final := by
  induction events generalizing state with
  | nil => exact Option.some.inj hrun ▸ hstart
  | cons event events ih =>
      obtain ⟨next, hnext, hrest⟩ := run_cons_eq_some_iff.mp hrun
      have hfirst := hevents event List.mem_cons_self
      exact ih (fun other hmem => hevents other (List.mem_cons_of_mem event hmem))
        (hstep hfirst hstart hnext) hrest

/-- What every step preserves holds at the end of a run. -/
theorem run_invariant {I : σ → Prop}
    (hstep : ∀ {state event next}, I state → step state event = some next → I next)
    {state final : σ} {events : List ε} (hstart : I state)
    (hrun : run step state events = some final) : I final :=
  @run_invariant_on σ ε step I (fun _ => True) (fun _ => hstep) state final events
    (fun _ _ => trivial) hstart hrun

/-- What every step preserves of a state and the events before it holds at the end of a run. -/
theorem run_history {I : List ε → σ → Prop}
    (hstep : ∀ {history state event next}, I history state → step state event = some next →
      I (history ++ [event]) next)
    {state final : σ} {events : List ε} (hstart : I [] state)
    (hrun : run step state events = some final) : I events final := by
  -- The history grows at its end, so the induction takes the last event off.
  induction events using List.reverseRecOn generalizing final with
  | nil => exact Option.some.inj hrun ▸ hstart
  | append_singleton events event ih =>
      obtain ⟨middle, hmiddle, hlast⟩ := run_concat_eq_some_iff.mp hrun
      exact hstep (ih hmiddle) hlast

/-- A property of every state holds of the last one. -/
theorem EveryState.final {P : σ → Prop} {state final : σ} {events : List ε}
    (h : EveryState step P state events) (hrun : run step state events = some final) : P final :=
  h events [] final (by simp) hrun

theorem every_step_nil {P : σ → ε → σ → Prop} (state : σ) : EveryStep step P state [] := by
  intro before event after middle next hevents
  simp at hevents

/-- A property of every step is one of the first step and of every step of the rest. -/
theorem every_step_cons_iff {P : σ → ε → σ → Prop} {state : σ} {event : ε} {events : List ε} :
    EveryStep step P state (event :: events) ↔
      ∀ next, step state event = some next → P state event next ∧ EveryStep step P next events := by
  constructor
  · intro h next hnext
    refine ⟨h [] event events state next rfl rfl hnext, ?_⟩
    intro before later after middle last hevents hrun hlast
    exact h (event :: before) later after middle last (by rw [hevents, List.cons_append])
      (run_cons_eq_some_iff.mpr ⟨next, hnext, hrun⟩) hlast
  · intro h before later after middle last hevents hrun hlast
    cases before with
    | nil =>
        cases hevents
        cases hrun
        exact (h last hlast).1
    | cons first before =>
        cases hevents
        obtain ⟨next, hnext, hrest⟩ := run_cons_eq_some_iff.mp hrun
        exact (h next hnext).2 before later after middle last rfl hrest hlast

instance decidableEveryStep {P : σ → ε → σ → Prop}
    [∀ state event next, Decidable (P state event next)] :
    ∀ (state : σ) (events : List ε), Decidable (EveryStep step P state events)
  | state, [] => isTrue (every_step_nil state)
  | state, event :: events =>
      match hnext : step state event with
      | none => isTrue (every_step_cons_iff.mpr fun next h => by simp [hnext] at h)
      | some next =>
          have : Decidable (EveryStep step P next events) := decidableEveryStep next events
          decidable_of_iff (P state event next ∧ EveryStep step P next events) (by
            rw [every_step_cons_iff, hnext]
            simp)

/-- Steps that are equivalent in every state of an invariant are equivalent along a run. -/
theorem every_step_congr {I : σ → Prop} {P Q : σ → ε → σ → Prop}
    (hstep : ∀ {state event next}, I state → step state event = some next → I next)
    (hiff : ∀ {state event next}, I state → step state event = some next →
      (P state event next ↔ Q state event next))
    {state : σ} (hstart : I state) (events : List ε) :
    EveryStep step P state events ↔ EveryStep step Q state events := by
  have hreach : ∀ {before middle}, run step state before = some middle → I middle :=
    fun hrun => run_invariant hstep hstart hrun
  constructor
  · intro h before event after middle next hevents hrun hnext
    exact (hiff (hreach hrun) hnext).mp (h before event after middle next hevents hrun hnext)
  · intro h before event after middle next hevents hrun hnext
    exact (hiff (hreach hrun) hnext).mpr (h before event after middle next hevents hrun hnext)

/-- A property that a step keeps exactly when it meets a condition holds of every state of a run
exactly when every step meets the condition. -/
theorem every_state_iff_every_step {I P : σ → Prop} {C : σ → ε → σ → Prop}
    (hstep : ∀ {state event next}, I state → step state event = some next → I next)
    (hexact : ∀ {state event next}, I state → P state → step state event = some next →
      (P next ↔ C state event next))
    {state : σ} (hstart : I state) (hP : P state) (events : List ε) :
    EveryState step P state events ↔ EveryStep step C state events := by
  constructor
  · intro h before event after middle next hevents hrun hnext
    have hmiddle := h before (event :: after) middle hevents hrun
    have hconcat : run step state (before ++ [event]) = some next :=
      run_concat_eq_some_iff.mpr ⟨middle, hrun, hnext⟩
    have hafter := h (before ++ [event]) after next (by simp [hevents]) hconcat
    exact (hexact (run_invariant hstep hstart hrun) hmiddle hnext).mp hafter
  · intro h before
    -- The states are reached in order, so each takes the condition of the step before it.
    induction before using List.reverseRecOn with
    | nil =>
        intro after middle _ hrun
        exact Option.some.inj hrun ▸ hP
    | append_singleton before event ih =>
        intro after last hevents hrun
        obtain ⟨middle, hmiddle, hlast⟩ := run_concat_eq_some_iff.mp hrun
        have hcut : events = before ++ event :: after := by simpa using hevents
        have hbefore := ih (event :: after) middle hcut hmiddle
        exact (hexact (run_invariant hstep hstart hmiddle) hbefore hlast).mpr
          (h before event after middle last hcut hmiddle hlast)

/-- Where runs of certain events have a bounded length and go on until they come to a goal, one
comes to it. -/
theorem exists_run_to_goal {C : ε → Prop} {goal : σ → Prop} {bound : Nat} {state : σ}
    (hbounded : ∀ events final, (∀ event ∈ events, C event) →
      run step state events = some final → events.length ≤ bound)
    (hgoesOn : ∀ events final, (∀ event ∈ events, C event) → run step state events = some final →
      goal final ∨ ∃ event next, C event ∧ step final event = some next) :
    ∃ events final, (∀ event ∈ events, C event) ∧ run step state events = some final ∧
      goal final := by
  by_contra hnone
  -- A run that never comes to the goal can be made as long as one likes.
  have hlong : ∀ length, ∃ events final, (∀ event ∈ events, C event) ∧
      run step state events = some final ∧ events.length = length := by
    intro length
    induction length with
    | zero => exact ⟨[], state, by simp, rfl, rfl⟩
    | succ length ih =>
        obtain ⟨events, final, hevents, hrun, rfl⟩ := ih
        rcases hgoesOn events final hevents hrun with hgoal | ⟨event, next, hevent, hnext⟩
        · exact absurd ⟨events, final, hevents, hrun, hgoal⟩ hnone
        · refine ⟨events ++ [event], next, ?_, run_concat_eq_some_iff.mpr ⟨final, hrun, hnext⟩,
            by simp⟩
          simpa [or_imp, forall_and] using ⟨hevents, hevent⟩
  obtain ⟨events, final, hevents, hrun, hlength⟩ := hlong (bound + 1)
  have hle := hbounded events final hevents hrun
  omega

end Transition
