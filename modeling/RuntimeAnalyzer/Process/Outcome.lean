import RuntimeAnalyzer.Process.Steps

/-!
# The result of a run of the process

What the result says about the events that led to it. `Outcome` is the invariant: the error tells
whether `select` or `waitpid` failed, `timed_out` whether the deadline branch was taken, and the
exit code is that of the event which ended the child.
-/

namespace RuntimeAnalyzer

namespace Process

variable {ctx : Context} {history : List Event} {state next : State} {event : Event}

/-- A call of the child before the program fails, and the program is not started. -/
def Event.startFails : Event → Bool
  | chdir (some _) | exec (some _) => true
  | _ => false

/-- What the state says about the events before it. -/
structure Outcome (history : List Event) (state : State) : Prop where
  setUp : state.control.phase = .setUp → state.child = .absent ∧ state.result.error = []
  forked : state.child = .absent → state.control.phase = .setUp ∨ state.control.phase = .returned
  quiet : state.child = .absent → ∀ event ∈ history,
    event.fails = false ∧ event.endStatus = none ∧ event ≠ .selectTimedOut
  error : state.child ≠ .absent →
    (state.result.error ≠ [] ↔ ∃ event ∈ history, event.fails = true)
  timedOut : state.result.timedOut = true ↔ .selectTimedOut ∈ history
  ended : ∀ status, state.child = .zombie status ∨ state.child = .reaped status ↔
    ∃ event ∈ history, event.endStatus = some status
  exitCode : state.control.phase = .returned → state.result.error = [] →
    ∃ status, state.child = .reaped status ∧ state.result.exitCode = exitCodeOf status

theorem outcome_initial (clock : Int) : Outcome [] (initial clock) where
  setUp _ := ⟨rfl, rfl⟩
  forked _ := .inl rfl
  quiet _ := by simp
  error h := absurd rfl h
  timedOut := by simp [initial]
  ended := by simp [initial]
  exitCode h := by simp [initial, Control.phase] at h

/-! ## Events and the child -/

theorem fails_of_child (h : event.ofChild = true) : event.fails = false := by
  cases event <;> first | rfl | cases h

theorem ne_timed_out_of_child (h : event.ofChild = true) : event ≠ .selectTimedOut := by
  rintro rfl
  cases h

theorem end_status_of_parent (h : event.ofChild = false) : event.endStatus = none := by
  cases event <;> first | rfl | cases h

/-- What holds of some event up to now held of one before, or holds of this one. -/
theorem exists_mem_concat {P : Event → Prop} :
    (∃ e ∈ history ++ [event], P e) ↔ (∃ e ∈ history, P e) ∨ P event := by
  simp only [List.mem_append, List.mem_singleton]
  constructor
  · intro h
    obtain ⟨e, hmem | hmem, hP⟩ := h
    · exact .inl ⟨e, hmem, hP⟩
    · exact .inr (hmem ▸ hP)
  · intro h
    rcases h with ⟨e, hmem, hP⟩ | hP
    · exact ⟨e, .inl hmem, hP⟩
    · exact ⟨event, .inr rfl, hP⟩

/-- A child that is not there does not act. -/
theorem ChildStep.absent (h : ChildStep state next event) (habsent : state.child = .absent) :
    next.child = .absent ∧ event.endStatus = none := by
  cases hend : event.endStatus with
  | some status =>
      have hlive := (h.ended status hend).1
      simp [habsent, Child.live] at hlive
  | none =>
      rcases h.unended hend with hsame | ⟨hlive, _⟩
      · exact ⟨by rw [hsame, habsent], rfl⟩
      · simp [habsent, Child.live] at hlive

/-- Nor does it go away once it is there. -/
theorem ChildStep.absent_before (h : ChildStep state next event) (habsent : next.child = .absent) :
    state.child = .absent := by
  cases hend : event.endStatus with
  | some status => simp [(h.ended status hend).2] at habsent
  | none =>
      rcases h.unended hend with hsame | ⟨_, hlive⟩
      · rw [← hsame, habsent]
      · simp [habsent, Child.live] at hlive

/-- A live child has not been ended by any event. -/
theorem Outcome.no_end (h : Outcome history state) (hlive : state.child.live = true) :
    ∀ event ∈ history, event.endStatus = none := by
  intro event hmem
  rw [Option.eq_none_iff_forall_ne_some]
  intro status hstatus
  rcases (h.ended status).mpr ⟨event, hmem, hstatus⟩ with hchild | hchild <;>
    simp [hchild, Child.live] at hlive

/-- While the parent is in its loop or leaves it, the child is there. -/
theorem Outcome.present (h : Outcome history state)
    (hphase : state.control.phase = .loop ∨ state.control.phase = .leaving) :
    state.child ≠ .absent := by
  intro habsent
  rcases h.forked habsent with hsetUp | hreturned
  · simp [hsetUp] at hphase
  · simp [hreturned] at hphase

/-- The deadline branch is taken at one event only. -/
theorem Outcome.timed_out_concat (h : Outcome history state)
    (htimedOut : next.result.timedOut = state.result.timedOut)
    (htimed : event ≠ .selectTimedOut) :
    next.result.timedOut = true ↔ .selectTimedOut ∈ history ++ [event] := by
  rw [htimedOut, h.timedOut]
  simp [htimed.symm]

/-- An event that does not end the child leaves what ended it. -/
theorem Outcome.ended_concat (h : Outcome history state) (hchild : next.child = state.child)
    (hend : event.endStatus = none) (status : WaitStatus) :
    next.child = .zombie status ∨ next.child = .reaped status ↔
      ∃ e ∈ history ++ [event], e.endStatus = some status := by
  rw [hchild, h.ended status, exists_mem_concat, hend]
  simp

/-- Without a failure, neither the error nor the failures change. -/
theorem Outcome.error_concat (h : Outcome history state)
    (herror : next.result.error = state.result.error) (hfails : event.fails = false)
    (hpresent : state.child ≠ .absent) :
    next.result.error ≠ [] ↔ ∃ e ∈ history ++ [event], e.fails = true := by
  rw [herror, h.error hpresent, exists_mem_concat, hfails]
  simp

/-- Before the child is there, nothing has happened to it or to the calls on it. -/
theorem Outcome.quiet_concat (h : Outcome history state) (habsent : state.child = .absent)
    (hfails : event.fails = false) (htimed : event ≠ .selectTimedOut)
    (hend : event.endStatus = none) :
    ∀ e ∈ history ++ [event], e.fails = false ∧ e.endStatus = none ∧ e ≠ .selectTimedOut := by
  intro e hmem
  rcases List.mem_append.mp hmem with hmem | hmem
  · exact h.quiet habsent e hmem
  · rw [List.mem_singleton.mp hmem]
    exact ⟨hfails, hend, htimed⟩

/-! ## One step -/

/-- A step that the parent takes no part in. -/
theorem outcome_child_step (hstate : Outcome history state) (hevent : event.ofChild = true)
    (h : ChildStep state next event) : Outcome (history ++ [event]) next where
  setUp hphase := by
    rw [h.control] at hphase
    obtain ⟨habsent, herror⟩ := hstate.setUp hphase
    exact ⟨(h.absent habsent).1, by rw [h.result, herror]⟩
  forked habsent := by
    rw [h.control]
    exact hstate.forked (h.absent_before habsent)
  quiet habsent := by
    have hbefore := h.absent_before habsent
    exact hstate.quiet_concat hbefore (fails_of_child hevent) (ne_timed_out_of_child hevent)
      (h.absent hbefore).2
  error hpresent := by
    have hbefore : state.child ≠ .absent := fun habsent => hpresent (h.absent habsent).1
    exact hstate.error_concat (by rw [h.result]) (fails_of_child hevent) hbefore
  timedOut := hstate.timed_out_concat (by rw [h.result]) (ne_timed_out_of_child hevent)
  ended status := by
    rw [exists_mem_concat]
    -- A live child has not ended before, so this event is the one that ends it.
    cases hend : event.endStatus with
    | some last =>
        obtain ⟨hlive, hzombie⟩ := h.ended last hend
        have hnone : ¬ ∃ e ∈ history, e.endStatus = some status := by
          rintro ⟨e, hmem, hstatus⟩
          simp [hstate.no_end hlive e hmem] at hstatus
        simp [hzombie, hnone]
    | none =>
        rcases h.unended hend with hsame | ⟨hlive, hnext⟩
        · rw [hsame, hstate.ended status]
          simp
        · have hnone : ¬ ∃ e ∈ history, e.endStatus = some status := by
            rintro ⟨e, hmem, hstatus⟩
            simp [hstate.no_end hlive e hmem] at hstatus
          refine iff_of_false ?_ (by simpa using hnone)
          rintro (hchild | hchild) <;> simp [hchild, Child.live] at hnext
  exitCode hphase herror := by
    rw [h.control] at hphase
    rw [h.result] at herror
    -- The child was reaped, so no event moves or ends it any more.
    obtain ⟨status, hreaped, hexit⟩ := hstate.exitCode hphase herror
    refine ⟨status, ?_, by rw [h.result, hexit]⟩
    cases hend : event.endStatus with
    | some last =>
        have hlive := (h.ended last hend).1
        simp [hreaped, Child.live] at hlive
    | none =>
        rcases h.unended hend with hsame | ⟨hlive, _⟩
        · rw [hsame, hreaped]
        · simp [hreaped, Child.live] at hlive

/-- A step of the parent that keeps the child and the outcome, and does not return. -/
theorem outcome_keeps (hstate : Outcome history state) (hkeeps : Keeps state next)
    (hfails : event.fails = false) (htimed : event ≠ .selectTimedOut)
    (hend : event.endStatus = none)
    (hphase : next.control.phase = state.control.phase ∨
      state.control.phase = .loop ∧ next.control.phase = .leaving)
    (hreturned : next.control.phase ≠ .returned) : Outcome (history ++ [event]) next where
  setUp hsetUp := by
    rcases hphase with hsame | ⟨_, hleaving⟩
    · rw [hkeeps.child, hkeeps.error]
      exact hstate.setUp (hsame ▸ hsetUp)
    · simp [hleaving] at hsetUp
  forked habsent := by
    rw [hkeeps.child] at habsent
    rcases hphase with hsame | ⟨hloop, _⟩
    · rw [hsame]
      exact hstate.forked habsent
    · exact absurd habsent (hstate.present (.inl hloop))
  quiet habsent := by
    rw [hkeeps.child] at habsent
    exact hstate.quiet_concat habsent hfails htimed hend
  error hpresent := by
    rw [hkeeps.child] at hpresent
    exact hstate.error_concat hkeeps.error hfails hpresent
  timedOut := hstate.timed_out_concat hkeeps.timedOut htimed
  ended := hstate.ended_concat hkeeps.child hend
  exitCode hphase := absurd hphase hreturned

/-- A call that fails before there is a child. -/
theorem outcome_set_up_fails (hstate : Outcome history state) (hfails : event.fails = false)
    (htimed : event ≠ .selectTimedOut) (hend : event.endStatus = none)
    (hphase : state.control.phase = .setUp) (hnext : next.control = .returned)
    (hchild : next.child = state.child) (herror : next.result.error ≠ [])
    (htimedOut : next.result.timedOut = state.result.timedOut) :
    Outcome (history ++ [event]) next where
  setUp hsetUp := by simp [hnext, Control.phase] at hsetUp
  forked _ := .inr (by rw [hnext]; rfl)
  quiet _ := hstate.quiet_concat (hstate.setUp hphase).1 hfails htimed hend
  error hpresent := by
    rw [hchild, (hstate.setUp hphase).1] at hpresent
    exact absurd rfl hpresent
  timedOut := hstate.timed_out_concat htimedOut htimed
  ended := hstate.ended_concat hchild hend
  exitCode _ hempty := absurd hempty herror

/-- The child is there from now on, and has done nothing yet. -/
theorem outcome_forks (hstate : Outcome history state) (hphase : state.control.phase = .setUp)
    (hnext : next.control = .arm) (hchild : next.child = .starting .setpgid)
    (hresult : next.result = state.result) : Outcome (history ++ [.fork none]) next where
  setUp hsetUp := by simp [hnext, Control.phase] at hsetUp
  forked habsent := by simp [hchild] at habsent
  quiet habsent := by simp [hchild] at habsent
  error _ := by
    obtain ⟨habsent, herror⟩ := hstate.setUp hphase
    rw [hresult, herror]
    refine iff_of_false (by simp) ?_
    intro hfailed
    obtain ⟨e, hmem, hfails⟩ := hfailed
    have hquiet : e.fails = false := (hstate.quiet_concat habsent rfl (by simp) rfl e hmem).1
    simp [hquiet] at hfails
  timedOut := hstate.timed_out_concat (by rw [hresult]) (by simp)
  ended status := by
    have habsent := (hstate.setUp hphase).1
    refine iff_of_false (by simp [hchild]) ?_
    intro hended
    obtain ⟨e, hmem, hstatus⟩ := hended
    have hquiet : e.endStatus = none := (hstate.quiet_concat habsent rfl (by simp) rfl e hmem).2.1
    simp [hquiet] at hstatus
  exitCode hreturned := by simp [hnext, Control.phase] at hreturned

/-- A call that fails when the child is there leaves an error, and the child as it was. -/
theorem outcome_fails (hstate : Outcome history state) (hfails : event.fails = true)
    (htimed : event ≠ .selectTimedOut) (hend : event.endStatus = none)
    (hphase : state.control.phase = .loop ∨ state.control.phase = .leaving)
    (hnext : next.control.phase ≠ .setUp) (hchild : next.child = state.child)
    (herror : next.result.error ≠ [])
    (htimedOut : next.result.timedOut = state.result.timedOut) :
    Outcome (history ++ [event]) next where
  setUp hsetUp := absurd hsetUp hnext
  forked habsent := absurd (hchild ▸ habsent) (hstate.present hphase)
  quiet habsent := absurd (hchild ▸ habsent) (hstate.present hphase)
  error _ := iff_of_true herror ⟨event, by simp, hfails⟩
  timedOut := hstate.timed_out_concat htimedOut htimed
  ended := hstate.ended_concat hchild hend
  exitCode _ hempty := absurd hempty herror

/-- The deadline branch. -/
theorem outcome_kills (hstate : Outcome history state) (hphase : state.control.phase = .loop)
    (hnext : next.control.phase = .leaving) (hchild : next.child = state.child)
    (herror : next.result.error = state.result.error) (htimedOut : next.result.timedOut = true) :
    Outcome (history ++ [.selectTimedOut]) next where
  setUp hsetUp := by simp [hnext] at hsetUp
  forked habsent := absurd (hchild ▸ habsent) (hstate.present (.inl hphase))
  quiet habsent := absurd (hchild ▸ habsent) (hstate.present (.inl hphase))
  error _ := hstate.error_concat herror rfl (hstate.present (.inl hphase))
  timedOut := iff_of_true htimedOut (by simp)
  ended := hstate.ended_concat hchild rfl
  exitCode hreturned := by simp [hnext] at hreturned

/-- `waitpid` takes the status of the child and makes the exit code of it. -/
theorem outcome_returns {status : WaitStatus} (hstate : Outcome history state)
    (hphase : state.control = .waiting) (hzombie : state.child = .zombie status)
    (hnext : next.control = .returned) (hchild : next.child = .reaped status)
    (hexit : next.result.exitCode = exitCodeOf status)
    (herror : next.result.error = state.result.error)
    (htimedOut : next.result.timedOut = state.result.timedOut) :
    Outcome (history ++ [.waited]) next where
  setUp hsetUp := by simp [hnext, Control.phase] at hsetUp
  forked habsent := by simp [hchild] at habsent
  quiet habsent := by simp [hchild] at habsent
  error _ := hstate.error_concat herror rfl (hstate.present (.inr (by rw [hphase]; rfl)))
  timedOut := hstate.timed_out_concat htimedOut (by simp)
  ended last := by
    rw [exists_mem_concat, ← hstate.ended last]
    simp [hchild, hzombie, Event.endStatus]
  exitCode _ _ := ⟨status, hchild, hexit⟩

/-- A step of the parent. -/
theorem outcome_parent_step (hstate : Outcome history state) (hevent : event.ofChild = false)
    (h : ParentStep state next event) : Outcome (history ++ [event]) next := by
  have hend := end_status_of_parent hevent
  cases h with
  | setsUp hfails htimed hphase hnext hkeeps =>
      exact outcome_keeps hstate hkeeps hfails htimed hend (.inl (by rw [hnext, hphase]))
        (by simp [hnext])
  | setUpFails hfails htimed hphase hnext hchild herror htimedOut =>
      exact outcome_set_up_fails hstate hfails htimed hend hphase hnext hchild herror htimedOut
  | forks hphase hnext hchild _ hresult =>
      exact outcome_forks hstate hphase hnext hchild hresult
  | loops hfails htimed _ _ hphase hnext hkeeps =>
      exact outcome_keeps hstate hkeeps hfails htimed hend (.inl (by rw [hnext, hphase]))
        (by simp [hnext])
  | ends hhead _ hnext hkeeps =>
      exact outcome_keeps hstate hkeeps rfl (by simp) hend
        (.inr ⟨by rw [hhead]; rfl, by rw [hnext]; rfl⟩) (by simp [hnext, Control.phase])
  | selectFails herrno hphase hnext hchild _ herror htimedOut =>
      exact outcome_fails hstate (by simp [Event.fails, herrno]) (by simp) hend (.inl hphase)
        (by simp [hnext, Control.phase]) hchild herror htimedOut
  | kills hphase _ hnext hchild _ herror htimedOut =>
      exact outcome_kills hstate hphase hnext hchild herror htimedOut
  | leaves hfails htimed hphase hnext hkeeps =>
      exact outcome_keeps hstate hkeeps hfails htimed hend (.inl (by rw [hnext, hphase]))
        (by simp [hnext])
  | returns hphase hzombie hnext hchild hexit herror htimedOut =>
      exact outcome_returns hstate hphase hzombie hnext hchild hexit herror htimedOut
  | waitFails herrno hphase hnext hchild herror htimedOut =>
      exact outcome_fails hstate (by simp [Event.fails, herrno]) (by simp) hend
        (.inr (by rw [hphase]; rfl)) (by simp [hnext, Control.phase]) hchild herror htimedOut

/-- Every step keeps what the state says about the events before it. -/
theorem outcome_step (hstate : Outcome history state) (h : step ctx state event = some next) :
    Outcome (history ++ [event]) next := by
  cases hevent : event.ofChild with
  | true => exact outcome_child_step hstate hevent (child_step h hevent)
  | false => exact outcome_parent_step hstate hevent (parent_step h hevent)

/-! ## Runs -/

/-- The state after a run says what the run was. -/
theorem outcome_run {clock : Int} {events : List Event} {final : State}
    (h : runFrom ctx clock events = some final) : Outcome events final :=
  Transition.run_history outcome_step (outcome_initial clock) h

/-! ## What is returned -/

variable {clock : Int} {events : List Event} {result : ProcessResult}

/-- Once the child has ended, the error tells whether `select` or `waitpid` failed. -/
theorem returned_error_iff (h : Returns ctx clock events result)
    (hended : ∃ event ∈ events, ∃ status, event.endStatus = some status) :
    result.error ≠ [] ↔ ∃ event ∈ events, event.fails = true := by
  obtain ⟨final, hrun, _, rfl⟩ := h
  have houtcome := outcome_run hrun
  obtain ⟨event, hmem, status, hstatus⟩ := hended
  have hpresent : final.child ≠ .absent := by
    intro habsent
    rcases (houtcome.ended status).mpr ⟨event, hmem, hstatus⟩ with hchild | hchild <;>
      simp [habsent] at hchild
  exact houtcome.error hpresent

/-- A program that could not be started has ended with the status of that. -/
theorem end_status_of_start_fails (h : event.startFails = true) :
    ∃ status, event.endStatus = some status := by
  cases event with
  | chdir error | exec error =>
      cases error with
      | none => cases h
      | some errno => exact ⟨_, rfl⟩
  | _ => cases h

theorem exit_code_of_eq_zero_iff (status : WaitStatus) :
    exitCodeOf status = 0 ↔ status = .exited 0 := by
  cases status with
  | exited code => simp [exitCodeOf, ← UInt8.toNat_inj]
  | signaled signal =>
      unfold exitCodeOf
      simp only [reduceCtorEq, iff_false]
      omega
  | other => simp [exitCodeOf]

/-- The child exits with 0 only from the program. -/
theorem end_status_exited_zero_iff (event : Event) :
    event.endStatus = some (.exited 0) ↔ event = .exit 0 := by
  cases event with
  | chdir error => cases error <;> simp [Event.endStatus]
  | exec error =>
      cases error with
      | none => simp [Event.endStatus]
      | some errno =>
          have hcode : ¬ (if errno = .enoent then (127 : UInt8) else 126) = 0 := by
            split <;> decide
          simp [Event.endStatus, execFailure, hcode]
  | _ => simp [Event.endStatus]

/-- No error and the exit code 0 are returned exactly when the program exited with 0 and neither
`select` nor `waitpid` failed. -/
theorem returned_zero_iff (h : Returns ctx clock events result) :
    result.error = [] ∧ result.exitCode = 0 ↔
      .exit 0 ∈ events ∧ ∀ event ∈ events, event.fails = false := by
  obtain ⟨final, hrun, hreturned, rfl⟩ := h
  have houtcome := outcome_run hrun
  have hphase : final.control.phase = .returned := by rw [hreturned]; rfl
  constructor
  · intro ⟨herror, hcode⟩
    obtain ⟨status, hreaped, hexit⟩ := houtcome.exitCode hphase herror
    obtain rfl := (exit_code_of_eq_zero_iff status).mp (hexit ▸ hcode)
    obtain ⟨event, hmem, hstatus⟩ := (houtcome.ended _).mp (.inr hreaped)
    rw [(end_status_exited_zero_iff event).mp hstatus] at hmem
    refine ⟨hmem, fun event hevent => ?_⟩
    -- A call that failed would have left an error.
    by_contra hfails
    have hfailed := (houtcome.error (by simp [hreaped])).mpr ⟨event, hevent, by simpa using hfails⟩
    exact hfailed herror
  · intro ⟨hmem, hfails⟩
    have hended := (houtcome.ended (.exited 0)).mpr ⟨_, hmem, rfl⟩
    have hpresent : final.child ≠ .absent := by
      rcases hended with hchild | hchild <;> simp [hchild]
    have herror : final.result.error = [] := by
      by_contra hne
      obtain ⟨event, hevent, hfailed⟩ := (houtcome.error hpresent).mp hne
      simp [hfails event hevent] at hfailed
    obtain ⟨status, hreaped, hexit⟩ := houtcome.exitCode hphase herror
    have hstatus : status = .exited 0 := by simpa [hreaped] using hended
    exact ⟨herror, by rw [hexit, hstatus]; rfl⟩

/-- `timed_out` is returned exactly when `select` reported that its time was up. -/
theorem returned_timed_out_iff (h : Returns ctx clock events result) :
    result.timedOut = true ↔ .selectTimedOut ∈ events := by
  obtain ⟨final, hrun, _, rfl⟩ := h
  exact (outcome_run hrun).timedOut

end Process

end RuntimeAnalyzer
