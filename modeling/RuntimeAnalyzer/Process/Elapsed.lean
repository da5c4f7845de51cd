import RuntimeAnalyzer.Process.Work
import RuntimeAnalyzer.Timeout

/-!
# The limit in a run

Where the limit stands in the time of a run. The deadline is armed once and each wait is computed
from it anew, in microseconds, so a wait can end a little before the deadline and never after it.
`limit_kept` says so of every state of every run whose clock can count the limit.
-/

namespace RuntimeAnalyzer

namespace Process

variable {ctx : Context} {state next : State} {event : Event} {start : Int}

/-- The limit in nanoseconds. -/
def Context.limit (ctx : Context) : Int :=
  ctx.spec.timeout * 1000000

/-- The clock can count the limit from this reading on. -/
def Context.Counts (ctx : Context) (clock : Int) : Prop :=
  clock + ctx.limit ≤ Int64.maxValue.toInt

/-- A run that began at `start` is on time: what its deadline, its wait and its timeout say of the
clock. -/
structure OnTime (ctx : Context) (start : Int) (state : State) : Prop where
  started : start ≤ state.clock
  armed : ∀ deadline, state.deadline = some deadline →
    0 < ctx.spec.timeout ∧ start + ctx.limit ≤ deadline ∧ deadline ≤ state.clock + ctx.limit
  unarmed : state.control.phase = .loop → state.deadline = none →
    state.control = .arm ∨ ctx.spec.timeout ≤ 0
  waits : ∀ wait since, state.control = .select wait since →
    start ≤ since ∧ since ≤ state.clock ∧ wait = waitFrom since state.deadline
  stopped : state.result.timedOut = true →
    0 < ctx.spec.timeout ∧ start + ctx.limit < state.clock + 1000

/-! ## Deadlines and waits -/

/-- Where the clock can count the limit, the deadline is the limit away. -/
theorem deadline_from_eq {clock : Int} (hclock : 0 ≤ clock) (hcounts : ctx.Counts clock)
    (hlimit : 0 < ctx.spec.timeout) :
    deadlineFrom clock ctx.spec.timeout = some (clock + ctx.limit) := by
  have hmin : Int64.minValue.toInt = -9223372036854775808 := rfl
  have hfits : Fits64 (clock + ctx.spec.timeout * 1000000) := by
    simp only [Context.Counts, Context.limit] at hcounts
    simp only [Fits64, hmin]
    omega
  rw [deadlineFrom, if_pos hlimit, wrap64_add_wrap64, wrap64_eq_self_iff.mpr hfits, Context.limit]

/-- A wait ends at the deadline, or within the microsecond before it. -/
theorem wait_from_bounds {since deadline : Int} {micros : Nat} (hsince : 0 ≤ since)
    (hnonneg : 0 ≤ deadline) (hdeadline : deadline ≤ Int64.maxValue.toInt)
    (hfits : since ≤ Int64.maxValue.toInt) (hwait : waitFrom since (some deadline) = some micros) :
    deadline < since + micros * 1000 + 1000 ∧
      (since + micros * 1000 ≤ deadline ∨ micros = 0 ∧ deadline ≤ since) := by
  have hmin : Int64.minValue.toInt = -9223372036854775808 := rfl
  have hmax : Int64.maxValue.toInt = 9223372036854775807 := rfl
  have hleft : wrap64 (deadline - since) = deadline - since := by
    rw [wrap64_eq_self_iff, Fits64, hmin, hmax]
    omega
  simp only [waitFrom, Option.map_some, Option.some.injEq, hleft] at hwait
  omega

/-! ## Every step keeps the time -/

theorem on_time_initial (ctx : Context) (start : Int) : OnTime ctx start (initial start) where
  started := Int.le_refl start
  armed _ h := by cases h
  unarmed h := by cases h
  waits _ _ h := by cases h
  stopped h := by cases h

/-- Time passes, and nothing of the parent's changes. -/
theorem on_time_child_step (hstate : OnTime ctx start state) (h : step ctx state event = some next)
    (hevent : event.ofChild = true) : OnTime ctx start next := by
  have hchild := child_step h hevent
  have hclock := clock_child_step h hevent
  have hstarted := hstate.started
  refine ⟨by omega, fun deadline hdeadline => ?_, ?_, fun wait since hcontrol => ?_,
    fun htimed => ?_⟩
  · obtain ⟨hlimit, hfrom, hto⟩ := hstate.armed deadline (by rw [← hchild.deadline, hdeadline])
    exact ⟨hlimit, hfrom, by omega⟩
  · rw [hchild.deadline, hchild.control]
    exact hstate.unarmed
  · obtain ⟨hsince, hbefore, hwait⟩ := hstate.waits wait since (by rw [← hchild.control, hcontrol])
    exact ⟨hsince, by omega, by rw [hchild.deadline, hwait]⟩
  · obtain ⟨hlimit, hlate⟩ := hstate.stopped (by rw [← hchild.result, htimed])
    exact ⟨hlimit, by omega⟩

/-- `select` is called from the head of the loop alone. -/
theorem enters_select {wait : Option Nat} {since : Int} (h : step ctx state event = some next)
    (hevent : event.ofChild = false) (hcontrol : next.control = .select wait since) :
    since = state.clock ∧ wait = waitFrom state.clock state.deadline ∧
      next.deadline = state.deadline := by
  cases parent_move h hevent with
  | selects =>
      cases hcontrol
      exact ⟨rfl, rfl, rfl⟩
  | selectReady | selectTimesOut | readsEof | readAgain | readFails =>
      exact absurd hcontrol (drain_then_ne_select wait since)
  | reads hdrain =>
      have hsame : state.control = .select wait since := by
        rw [← hcontrol]
        show _ = (State.setPipe _ _ _).control
        rw [control_set_pipe, control_append]
      simp [hdrain] at hsame
  | readRetries hdrain => simp [State.call, hdrain] at hcontrol
  | waitRetries hdrain => simp [hdrain] at hcontrol
  | _ => cases hcontrol

/-- A wait that is over had a deadline, and its time has passed. -/
theorem select_times_out (h : step ctx state .selectTimedOut = some next) :
    ∃ micros since, state.control = .select (some micros) since ∧
      since + micros * 1000 ≤ state.clock := by
  cases parent_move h rfl with
  | selectTimesOut hcontrol _ htime => exact ⟨_, _, hcontrol, htime⟩

/-- The parent has armed the deadline when it is in its loop. -/
theorem unarmed_parent_step (hstate : OnTime ctx start state) (h : step ctx state event = some next)
    (hevent : event.ofChild = false) (hphase : next.control.phase = .loop)
    (hdeadline : next.deadline = none) : next.control = .arm ∨ ctx.spec.timeout ≤ 0 := by
  by_cases harm : state.control = .arm
  · cases parent_move h hevent with
    | arms =>
        have hnone : deadlineFrom state.clock ctx.spec.timeout = none := hdeadline
        rw [deadlineFrom] at hnone
        split at hnone
        · cases hnone
        · exact .inr (by omega)
    | endsLoop hhead | selects hhead => simp [harm] at hhead
    | _ => simp_all
  · rw [deadline_parent_step h hevent harm] at hdeadline
    cases parent_step h hevent with
    | forks _ hnext => exact .inl hnext
    | loops _ _ _ _ hloop =>
        exact .inr ((hstate.unarmed hloop hdeadline).resolve_left harm)
    | _ => simp_all [Control.phase]

/-- The deadline that the parent arms. -/
theorem armed_parent_step (hstart : 0 ≤ start) (hstate : OnTime ctx start state)
    (h : step ctx state event = some next) (hevent : event.ofChild = false)
    (hcounts : ctx.Counts state.clock) {deadline : Int}
    (hdeadline : next.deadline = some deadline) :
    0 < ctx.spec.timeout ∧ start + ctx.limit ≤ deadline ∧ deadline ≤ next.clock + ctx.limit := by
  have hstarted := hstate.started
  by_cases harm : state.control = .arm
  · cases parent_move h hevent with
    | arms =>
        have hset : deadlineFrom state.clock ctx.spec.timeout = some deadline := hdeadline
        have hlimit : 0 < ctx.spec.timeout := by
          by_contra hnone
          rw [deadlineFrom, if_neg hnone] at hset
          cases hset
        rw [deadline_from_eq (by omega) hcounts hlimit, Option.some.injEq] at hset
        exact ⟨hlimit, by omega, Int.le_of_eq hset.symm⟩
    | endsLoop hhead | selects hhead => simp [harm] at hhead
    | _ => simp_all
  · rw [deadline_parent_step h hevent harm] at hdeadline
    rw [clock_parent_step h hevent]
    exact hstate.armed deadline hdeadline

/-- A wait that is over ends within the last microsecond of the limit at the earliest. -/
theorem late_of_times_out (hstart : 0 ≤ start) (hstate : OnTime ctx start state)
    (hcounts : ctx.Counts state.clock) (h : step ctx state .selectTimedOut = some next) :
    0 < ctx.spec.timeout ∧ start + ctx.limit < state.clock + 1000 := by
  obtain ⟨micros, since, hcontrol, htime⟩ := select_times_out h
  obtain ⟨hsince, hbefore, hwait⟩ := hstate.waits _ _ hcontrol
  cases hdeadline : state.deadline with
  | none => simp [hdeadline, waitFrom] at hwait
  | some deadline =>
      obtain ⟨hlimit, hfrom, hto⟩ := hstate.armed deadline hdeadline
      have hpositive : 0 < ctx.limit := by
        rw [Context.limit]
        omega
      simp only [Context.Counts] at hcounts
      rw [hdeadline] at hwait
      have hbounds := wait_from_bounds (by omega) (by omega) (by omega) (by omega) hwait.symm
      exact ⟨hlimit, by omega⟩

theorem on_time_parent_step (hstart : 0 ≤ start) (hstate : OnTime ctx start state)
    (h : step ctx state event = some next) (hevent : event.ofChild = false)
    (hcounts : ctx.Counts state.clock) : OnTime ctx start next := by
  have hclock := clock_parent_step h hevent
  have hstarted := hstate.started
  refine ⟨by omega, fun deadline => armed_parent_step hstart hstate h hevent hcounts,
    unarmed_parent_step hstate h hevent, fun wait since hcontrol => ?_, fun htimed => ?_⟩
  · obtain ⟨rfl, hwait, hdeadline⟩ := enters_select h hevent hcontrol
    exact ⟨hstarted, by omega, by rw [hdeadline, hwait]⟩
  · rw [hclock]
    by_cases hkills : event = .selectTimedOut
    · subst hkills
      exact late_of_times_out hstart hstate hcounts h
    · refine hstate.stopped ?_
      cases parent_step h hevent with
      | kills => exact absurd rfl hkills
      | setsUp _ _ _ _ hkeeps | loops _ _ _ _ _ _ hkeeps | ends _ _ _ hkeeps
        | leaves _ _ _ _ hkeeps => rw [← hkeeps.timedOut, htimed]
      | forks _ _ _ _ hresult => rw [← hresult, htimed]
      | setUpFails _ _ _ _ _ _ hsame | selectFails _ _ _ _ _ _ hsame
        | returns _ _ _ _ _ _ hsame | waitFails _ _ _ _ _ hsame => rw [← hsame, htimed]

/-- A run is on time as long as its clock can count the limit. -/
theorem on_time_run (hstart : 0 ≤ start) {events : List Event} {final : State}
    (hrun : runFrom ctx start events = some final) (hcounts : ctx.Counts final.clock) :
    OnTime ctx start final := by
  refine @Transition.run_invariant State Event (step ctx)
    (fun state => ctx.Counts state.clock → OnTime ctx start state) ?_ (initial start) final events
    (fun _ => on_time_initial ctx start) hrun hcounts
  intro state event next hstate h hnext
  cases hevent : event.ofChild with
  | true =>
      have hclock := clock_child_step h hevent
      have hcounted : ctx.Counts state.clock := by
        simp only [Context.Counts] at hnext ⊢
        omega
      exact on_time_child_step (hstate hcounted) h hevent
  | false =>
      rw [clock_parent_step h hevent] at hnext
      exact on_time_parent_step hstart (hstate hnext) h hevent hnext

/-! ## The limit is kept -/

/-- What a limit promises of a state: no program is stopped more than a microsecond before its
time, and in its loop the parent waits no longer than its time. -/
structure LimitKept (ctx : Context) (start : Int) (state : State) : Prop where
  notEarly : state.result.timedOut = true →
    0 < ctx.spec.timeout ∧ start + ctx.limit < state.clock + 1000
  notLate : ∀ wait since, 0 < ctx.spec.timeout → state.control = .select wait since →
    ∃ armed, start ≤ armed ∧ armed ≤ state.clock ∧ state.deadline = some (armed + ctx.limit) ∧
      (armed + ctx.limit ≤ state.clock → state.readyStreams = [] →
        ∃ next, step ctx state .selectTimedOut = some next)

/-- The limit is kept in every state of every run whose clock can count it. -/
theorem limit_kept {events : List Event} {final : State} (hstart : 0 ≤ start)
    (hrun : runFrom ctx start events = some final) (hcounts : ctx.Counts final.clock) :
    LimitKept ctx start final := by
  have htime := on_time_run hstart hrun hcounts
  refine ⟨htime.stopped, fun wait since hlimit hcontrol => ?_⟩
  obtain ⟨hsince, hbefore, hwait⟩ := htime.waits wait since hcontrol
  cases hdeadline : final.deadline with
  | none =>
      have hunarmed := htime.unarmed (by rw [hcontrol]; rfl) hdeadline
      simp only [hcontrol, reduceCtorEq, false_or] at hunarmed
      omega
  | some deadline =>
      obtain ⟨-, hfrom, hto⟩ := htime.armed deadline hdeadline
      refine ⟨deadline - ctx.limit, by omega, by omega, by simp, fun hover hready => ?_⟩
      have hpositive : 0 < ctx.limit := by
        rw [Context.limit]
        omega
      simp only [Context.Counts] at hcounts
      cases hmicros : wait with
      | none => simp [hmicros, hdeadline, waitFrom] at hwait
      | some micros =>
          rw [hmicros] at hcontrol hwait
          rw [hdeadline] at hwait
          have hbounds := wait_from_bounds (by omega) (by omega) (by omega) (by omega) hwait.symm
          exact ⟨_, step_of_move (.selectTimesOut hcontrol hready (by omega))⟩

/-- A program that hangs is stopped at its limit of one second. -/
theorem limit_kept_hanging :
    ∃ final, runFrom hangingProgram 0 hangs = some final ∧ final.result.timedOut = true ∧
      LimitKept hangingProgram 0 final := by
  obtain ⟨final, hrun, htimed, hcounts⟩ :
      ∃ final, runFrom hangingProgram 0 hangs = some final ∧ final.result.timedOut = true ∧
        hangingProgram.Counts final.clock :=
    ⟨_, rfl, by decide, by unfold Context.Counts; decide⟩
  exact ⟨final, hrun, htimed, limit_kept (by decide) hrun hcounts⟩

end Process

end RuntimeAnalyzer
