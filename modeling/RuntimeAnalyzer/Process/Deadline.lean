import RuntimeAnalyzer.Process.Steps

/-!
# The deadline

Whether the parent can wait without limit for a live child, whether it enforces its deadline, and
whether a child that counts as timed out was killed. `leaves_supervised_iff`, `enforces_iff` and
`signalled_iff` say of every run when: the loop has ways out, and turns, that neither look at the
deadline nor kill, and the kill misses a child that has not made its group yet.
-/

namespace RuntimeAnalyzer

namespace Process

variable {ctx : Context} {state next : State} {event : Event}

/-! ## Before the loop is left -/

/-- Nothing has been killed before the loop is left. -/
def Unkilled (state : State) : Prop :=
  state.control.phase = .setUp ∨ state.control.phase = .loop →
    state.sigkill = false ∧ state.result.timedOut = false

theorem unkilled_initial (clock : Int) : Unkilled (initial clock) :=
  fun _ => ⟨rfl, rfl⟩

/-- No step kills and stays in the loop. -/
theorem unkilled_step (hstate : Unkilled state) (h : step ctx state event = some next) :
    Unkilled next := by
  cases hevent : event.ofChild with
  | true =>
      have hchild := child_step h hevent
      intro hphase
      rw [hchild.control] at hphase
      rw [hchild.sigkill, hchild.result]
      exact hstate hphase
  | false =>
      intro hphase
      -- Only `kills` touches the group, and it leaves the loop.
      cases parent_step h hevent with
      | setsUp _ _ hsetUp _ hkeeps =>
          rw [hkeeps.sigkill, hkeeps.timedOut]
          exact hstate (.inl hsetUp)
      | forks hsetUp _ _ hsigkill hresult =>
          rw [hsigkill, hresult]
          exact hstate (.inl hsetUp)
      | loops _ _ _ _ hloop _ hkeeps =>
          rw [hkeeps.sigkill, hkeeps.timedOut]
          exact hstate (.inr hloop)
      | setUpFails _ _ _ hnext => simp [hnext, Control.phase] at hphase
      | ends _ _ hnext => simp [hnext, Control.phase] at hphase
      | selectFails _ _ hnext => simp [hnext, Control.phase] at hphase
      | kills _ _ hnext => simp [hnext] at hphase
      | leaves _ _ _ hnext => simp [hnext] at hphase
      | returns _ _ hnext => simp [hnext, Control.phase] at hphase
      | waitFails _ _ hnext => simp [hnext, Control.phase] at hphase

/-! ## The wait for the child -/

/-- At the untimed `waitpid`, the child has exited or was sent SIGKILL. -/
def WaitsSafely (state : State) : Prop :=
  state.control = .waiting → state.child.hasExited = true ∨ state.sigkill = true

/-- The same once the loop has been left, so also while the last output is read. -/
def LeavesSafely (state : State) : Prop :=
  state.control.phase = .leaving → state.child.hasExited = true ∨ state.sigkill = true

/-- A step that does not leave the loop with a live child that it has not killed: the pipes are not
both at their end, nor does `select` fail, before the child exits, and at the deadline a live child
is in the group that is killed. -/
structure Supervised (state : State) (event : Event) (_ : State) : Prop where
  atEnd : event = .proceed → state.control = .head → state.openStreams = [] →
    state.child.hasExited = true
  afterFailure : event.ofSelect = true → event.fails = true → state.child.hasExited = true
  atDeadline : event = .selectTimedOut → state.child.hasExited = true ∨ state.inGroup = true

instance (state : State) (event : Event) (next : State) :
    Decidable (Supervised state event next) :=
  decidable_of_iff
    ((event = .proceed → state.control = .head → state.openStreams = [] →
        state.child.hasExited = true) ∧
      (event.ofSelect = true → event.fails = true → state.child.hasExited = true) ∧
      (event = .selectTimedOut → state.child.hasExited = true ∨ state.inGroup = true))
    ⟨fun h => ⟨h.1, h.2.1, h.2.2⟩, fun h => ⟨h.atEnd, h.afterFailure, h.atDeadline⟩⟩

/-- A child that has exited stays so. -/
theorem has_exited_step (hexited : state.child.hasExited = true)
    (h : step ctx state event = some next) (hevent : event.ofChild = true) :
    next.child.hasExited = true := by
  have hdead : state.child.live = false := by
    cases hchild : state.child <;> simp_all [Child.hasExited, Child.live]
  have hchild := child_step h hevent
  cases hend : event.endStatus with
  | some status => simp [(hchild.ended status hend).1] at hdead
  | none =>
      rcases hchild.unended hend with hsame | ⟨hlive, _⟩
      · rwa [hsame]
      · simp [hlive] at hdead

/-- A step of the parent that neither fails nor times out is supervised, unless it ends the loop. -/
theorem supervised_of_quiet (hevent : event.fails = false) (htimed : event ≠ .selectTimedOut)
    (hhead : event = .proceed → state.control = .head → state.openStreams = [] →
      state.child.hasExited = true) : Supervised state event next := by
  refine ⟨hhead, fun _ hfails => ?_, fun h => absurd h htimed⟩
  rw [hevent] at hfails
  cases hfails

/-- A step that does not lead out of the loop is safe. -/
theorem leaves_safely_of_phase (h : next.control.phase ≠ .leaving) : LeavesSafely next :=
  fun hphase => absurd hphase h

/-- A step that leaves the loop is safe exactly when it is supervised; every other step is. -/
theorem leaves_safely_step (hunkilled : Unkilled state) (hstate : LeavesSafely state)
    (h : step ctx state event = some next) :
    LeavesSafely next ↔ Supervised state event next := by
  cases hevent : event.ofChild with
  | true =>
      have hchild := child_step h hevent
      refine iff_of_true ?_ (supervised_of_quiet ?_ ?_ ?_)
      · intro hphase
        rw [hchild.control] at hphase
        rw [hchild.sigkill]
        exact (hstate hphase).imp_left fun hexited => has_exited_step hexited h hevent
      · cases event <;> first | rfl | cases hevent
      · rintro rfl
        cases hevent
      · rintro rfl
        cases hevent
  | false =>
      cases parent_step h hevent with
      | setsUp hquiet htimed hphase hnext =>
          refine iff_of_true (leaves_safely_of_phase (by simp [hnext]))
            (supervised_of_quiet hquiet htimed fun _ hhead => ?_)
          simp [hhead, Control.phase] at hphase
      | setUpFails hquiet htimed hphase hnext =>
          refine iff_of_true (leaves_safely_of_phase (by simp [hnext, Control.phase]))
            (supervised_of_quiet hquiet htimed fun _ hhead => ?_)
          simp [hhead, Control.phase] at hphase
      | forks _ hnext =>
          exact iff_of_true (leaves_safely_of_phase (by simp [hnext, Control.phase]))
            (supervised_of_quiet rfl (by simp) (by simp))
      | loops hquiet htimed _ hopen _ hnext =>
          exact iff_of_true (leaves_safely_of_phase (by simp [hnext]))
            (supervised_of_quiet hquiet htimed fun hproceed hhead hnone =>
              absurd hnone (hopen hproceed hhead))
      -- Both pipes are at their end: nothing was killed, so the child must have exited.
      | ends hhead hopen hnext hkeeps =>
          obtain ⟨hsigkill, _⟩ := hunkilled (.inr (by rw [hhead]; rfl))
          have hsafe : LeavesSafely next ↔ state.child.hasExited = true := by
            simp [LeavesSafely, hnext, Control.phase, hkeeps.child, hkeeps.sigkill, hsigkill]
          rw [hsafe]
          exact ⟨fun hexited => ⟨fun _ _ _ => hexited, by simp [Event.ofSelect], by simp⟩,
            fun hsupervised => hsupervised.atEnd rfl hhead hopen⟩
      | selectFails herrno hphase hnext hchild hkilled =>
          obtain ⟨hsigkill, _⟩ := hunkilled (.inr hphase)
          have hsafe : LeavesSafely next ↔ state.child.hasExited = true := by
            simp [LeavesSafely, hnext, Control.phase, hchild, hkilled, hsigkill]
          rw [hsafe]
          exact ⟨fun hexited => ⟨by simp, fun _ _ => hexited, by simp⟩,
            fun hsupervised => hsupervised.afterFailure rfl (by simpa [Event.fails] using herrno)⟩
      -- The kill reaches a live child only in its group.
      | kills hphase _ hnext hchild hkilled =>
          obtain ⟨hsigkill, _⟩ := hunkilled (.inr hphase)
          have hsafe : LeavesSafely next ↔
              state.child.hasExited = true ∨ state.inGroup = true := by
            simp [LeavesSafely, hnext, hchild, hkilled, hsigkill]
          rw [hsafe]
          exact ⟨fun hdone => ⟨by simp, by simp [Event.fails], fun _ => hdone⟩,
            fun hsupervised => hsupervised.atDeadline rfl⟩
      | leaves hquiet htimed hphase _ hkeeps =>
          refine iff_of_true ?_ (supervised_of_quiet hquiet htimed fun _ hhead => ?_)
          · intro _
            rw [hkeeps.child, hkeeps.sigkill]
            exact hstate hphase
          · simp [hhead, Control.phase] at hphase
      | returns _ _ hnext =>
          exact iff_of_true (leaves_safely_of_phase (by simp [hnext, Control.phase]))
            (supervised_of_quiet rfl (by simp) (by simp))
      | waitFails _ _ hnext =>
          exact iff_of_true (leaves_safely_of_phase (by simp [hnext, Control.phase]))
            ⟨by simp, by simp [Event.ofSelect], by simp⟩

/-- In a run, the loop is never left with a live child that was not killed exactly when every step
is supervised. -/
theorem leaves_supervised_iff (clock : Int) (events : List Event) :
    Transition.EveryState (step ctx) LeavesSafely (initial clock) events ↔
      Transition.EveryStep (step ctx) Supervised (initial clock) events :=
  Transition.every_state_iff_every_step unkilled_step leaves_safely_step (unkilled_initial clock)
    (leaves_safely_of_phase (by simp [initial, Control.phase])) events

/-- In every run of supervised steps, the parent is never at its untimed `waitpid` with a live child
that was not sent SIGKILL. -/
theorem waits_safely_of_supervised {clock : Int} {events : List Event}
    (h : Transition.EveryStep (step ctx) Supervised (initial clock) events) :
    Transition.EveryState (step ctx) WaitsSafely (initial clock) events := by
  have hleaves := (leaves_supervised_iff clock events).mpr h
  intro before after middle hevents hrun hwaiting
  exact hleaves before after middle hevents hrun (by rw [hwaiting]; rfl)

/-- A program that hangs with its pipes open, and a limit of one second. -/
def hangingProgram : Context where
  spec := { executable := lit "/bin/hang", timeout := 1000 }
  strerror _ := []

/-- The events up to the loop: the program runs. -/
def started : List Event :=
  [.pipe none, .pipe none, .fcntl true true, .fork none, .setpgid, .exec none, .proceed]

/-- The program hangs until the deadline. -/
def hangs : List Event :=
  started ++
    [.proceed, .tick 1000000000, .selectTimedOut, .readFailed .eagain, .readFailed .eagain]

/-- The hanging program is killed before the parent waits for it. -/
theorem waits_safely_hanging :
    Transition.EveryStep (step hangingProgram) Supervised (initial 0) hangs ∧
      Transition.EveryState (step hangingProgram) WaitsSafely (initial 0) hangs ∧
      (runFrom hangingProgram 0 hangs).map (·.control) = some .waiting := by
  have hsupervised : Transition.EveryStep (step hangingProgram) Supervised (initial 0) hangs := by
    decide
  exact ⟨hsupervised, waits_safely_of_supervised hsupervised, by decide⟩

/-- The program closes its output and goes on. -/
def closesOutput : List Event :=
  started ++
    [.close .stdout, .close .stderr, .proceed, .selectReady, .readEof, .readEof, .proceed]

/-- The parent waits without limit for a live program that was not killed. -/
theorem waits_for_live_child :
    ¬ Transition.EveryState (step hangingProgram) WaitsSafely (initial 0) closesOutput := by
  intro h
  have hfinal : ∃ final, runFrom hangingProgram 0 closesOutput = some final ∧
      final.control = .waiting ∧ final.child = .running ∧ final.sigkill = false :=
    ⟨_, rfl, by decide, by decide, by decide⟩
  obtain ⟨final, hrun, hwaiting, hchild, hsigkill⟩ := hfinal
  have hsafe := h.final hrun hwaiting
  simp [hchild, hsigkill, Child.hasExited] at hsafe

/-! ## The deadline in the loop -/

/-- The parent is in `select`, and the deadline had passed when the head of the loop looked. -/
def State.overdue (state : State) : Bool :=
  match state.control, state.deadline with
  | .select _ since, some deadline => deadline ≤ since
  | _, _ => false

/-- `select` fails, if only because a signal interrupts it. -/
def Event.interrupts : Event → Bool
  | selectFailed _ => true
  | _ => false

/-- When `select` returns after the deadline has passed, SIGKILL is sent to the group, the run
counts as timed out and the loop is left. -/
def Enforces (state : State) (event : Event) (next : State) : Prop :=
  state.overdue = true → event.ofSelect = true →
    next.kills = state.kills + 1 ∧ next.result.timedOut = true ∧ next.control.phase = .leaving

instance (state : State) (event : Event) (next : State) : Decidable (Enforces state event next) :=
  inferInstanceAs (Decidable (_ → _))

/-- When `select` returns after the deadline has passed, it finds no open pipe readable and does not
fail. -/
def Unhindered (state : State) (event : Event) (_ : State) : Prop :=
  state.overdue = true → event.ofSelect = true →
    state.readyStreams = [] ∧ event.interrupts = false

theorem overdue_phase (h : state.overdue = true) : state.control.phase = .loop := by
  unfold State.overdue at h
  split at h
  · rename_i hcontrol _
    rw [hcontrol]
    rfl
  · cases h

/-- A step enforces the deadline exactly when it is unhindered. -/
theorem enforces_step (hunkilled : Unkilled state) (h : step ctx state event = some next) :
    Enforces state event next ↔ Unhindered state event next := by
  unfold Enforces Unhindered
  refine forall_congr' fun hoverdue => forall_congr' fun hselect => ?_
  have hloop := overdue_phase hoverdue
  obtain ⟨_, htimedOut⟩ := hunkilled (.inr hloop)
  have hevent : event.ofChild = false := by
    cases event <;> first | rfl | cases hselect
  cases parent_step h hevent with
  | setsUp _ _ hphase => simp [hphase] at hloop
  | setUpFails _ _ hphase => simp [hphase] at hloop
  | forks => cases hselect
  -- `select` found output, or a signal came: the parent goes on without a look at the clock.
  | loops _ htimed hready _ _ hnext =>
      refine iff_of_false (by simp [hnext]) fun hunhindered => ?_
      cases event with
      | selectReady => exact hready rfl hunhindered.1
      | selectTimedOut => exact htimed rfl
      | selectFailed error => cases hunhindered.2
      | _ => cases hselect
  | ends => cases hselect
  | selectFails _ _ _ _ _ _ htimed =>
      exact iff_of_false (by simp [htimed, htimedOut]) (by simp [Event.interrupts])
  -- The kill is sent whoever is in the group.
  | kills _ hready hnext _ _ _ htimed hkills =>
      exact iff_of_true ⟨hkills, htimed, hnext⟩ ⟨hready, rfl⟩
  | leaves _ _ hphase => simp [hphase] at hloop
  | returns => cases hselect
  | waitFails => cases hselect

/-- In a run, the deadline is enforced each time it has passed exactly when nothing hinders a step
from it. -/
theorem enforces_iff (clock : Int) (events : List Event) :
    Transition.EveryStep (step ctx) Enforces (initial clock) events ↔
      Transition.EveryStep (step ctx) Unhindered (initial clock) events :=
  Transition.every_step_congr unkilled_step enforces_step (unkilled_initial clock) events

/-- A program that has left its group does not hinder the kill, though it is not reached. -/
example :
    let leaves := started ++ [.leaveGroup, .tick 2000000000, .proceed, .selectTimedOut]
    Transition.EveryStep (step hangingProgram) Enforces (initial 0) leaves ∧
      (runFrom hangingProgram 0 leaves).map (fun state => (state.kills, state.sigkill)) =
        some (1, false) := by
  decide

/-- The program prints while the deadline passes. -/
def keepsPrinting : List Event :=
  started ++ [.write .stdout (lit "."), .tick 2000000000, .proceed, .selectReady, .read 1,
    .readFailed .eagain]

/-- A second after the deadline the parent reads, and goes back to the head of the loop. -/
theorem reads_past_the_deadline :
    ¬ Transition.EveryStep (step hangingProgram) Enforces (initial 0) keepsPrinting ∧
      (runFrom hangingProgram 0 keepsPrinting).map
        (fun state => (state.control, state.kills, state.result.timedOut)) =
          some (.head, 0, false) := by
  decide

/-! ## The signal at the deadline -/

/-- Once the deadline branch has been taken, the child has exited or was sent SIGKILL. -/
def Signalled (state : State) : Prop :=
  state.result.timedOut = true → state.child.hasExited = true ∨ state.sigkill = true

/-- When the deadline branch is taken, a child that has not exited is in its own process group: it
has called `setpgid`, and has not left the group since. -/
def WithinReach (state : State) (event : Event) (_ : State) : Prop :=
  event = .selectTimedOut → state.child.hasExited = true ∨ state.inGroup = true

/-- A step away from the deadline branch leaves a child signalled. -/
theorem signalled_of_same (hstate : Signalled state)
    (htimedOut : next.result.timedOut = state.result.timedOut)
    (hsigkill : next.sigkill = state.sigkill)
    (hchild : state.child.hasExited = true → next.child.hasExited = true) : Signalled next := by
  intro hnext
  rw [htimedOut] at hnext
  rw [hsigkill]
  exact (hstate hnext).imp_left hchild

/-- So does one before the loop is left. -/
theorem signalled_of_not_timed_out (h : next.result.timedOut = false) : Signalled next := by
  intro hnext
  rw [h] at hnext
  cases hnext

theorem sigkill_wait_failed {error : Errno}
    (h : step ctx state (.waitFailed error) = some next) : next.sigkill = state.sigkill := by
  cases parent_move h rfl with
  | waitRetries | waitFails => rfl

/-- A step into the deadline branch signals the child exactly when it is within reach; every other
step leaves it signalled. -/
theorem signalled_step (hunkilled : Unkilled state) (hstate : Signalled state)
    (h : step ctx state event = some next) :
    Signalled next ↔ WithinReach state event next := by
  cases hevent : event.ofChild with
  | true =>
      have hchild := child_step h hevent
      refine iff_of_true ?_ ?_
      · exact signalled_of_same hstate (by rw [hchild.result]) hchild.sigkill
          fun hexited => has_exited_step hexited h hevent
      · rintro rfl
        cases hevent
  | false =>
      cases parent_step h hevent with
      | setsUp _ htimed _ _ hkeeps | loops _ htimed _ _ _ _ hkeeps
        | leaves _ htimed _ _ hkeeps =>
          refine iff_of_true ?_ fun h => absurd h htimed
          exact signalled_of_same hstate hkeeps.timedOut hkeeps.sigkill
            (by rw [hkeeps.child]; exact id)
      | setUpFails _ htimed hphase _ _ _ hsame =>
          obtain ⟨_, htimedOut⟩ := hunkilled (.inl hphase)
          exact iff_of_true (signalled_of_not_timed_out (by rw [hsame, htimedOut]))
            fun h => absurd h htimed
      | forks hphase _ _ _ hresult =>
          obtain ⟨_, htimedOut⟩ := hunkilled (.inl hphase)
          exact iff_of_true (signalled_of_not_timed_out (by rw [hresult, htimedOut]))
            (by simp [WithinReach])
      | ends _ _ _ hkeeps =>
          refine iff_of_true ?_ (by simp [WithinReach])
          exact signalled_of_same hstate hkeeps.timedOut hkeeps.sigkill
            (by rw [hkeeps.child]; exact id)
      | selectFails _ hphase _ _ _ _ hsame =>
          obtain ⟨_, htimedOut⟩ := hunkilled (.inr hphase)
          exact iff_of_true (signalled_of_not_timed_out (by rw [hsame, htimedOut]))
            (by simp [WithinReach])
      -- `kill` reaches the group, and the child only from the time it is in it.
      | kills hphase _ _ hchild hkilled _ htimedOut =>
          obtain ⟨hsigkill, _⟩ := hunkilled (.inr hphase)
          simp [Signalled, WithinReach, htimedOut, hchild, hkilled, hsigkill]
      | returns _ _ _ hchild =>
          refine iff_of_true (fun _ => .inl ?_) (by simp [WithinReach])
          rw [hchild]
          rfl
      | waitFails _ _ _ hchild _ hsame =>
          refine iff_of_true ?_ (by simp [WithinReach])
          exact signalled_of_same hstate hsame (sigkill_wait_failed h) (by rw [hchild]; exact id)

/-- In a run, `timed_out` is never set for a child that was not signalled exactly when the child is
within reach each time the deadline branch is taken. -/
theorem signalled_iff (clock : Int) (events : List Event) :
    Transition.EveryState (step ctx) Signalled (initial clock) events ↔
      Transition.EveryStep (step ctx) WithinReach (initial clock) events :=
  Transition.every_state_iff_every_step unkilled_step signalled_step (unkilled_initial clock)
    (signalled_of_not_timed_out rfl) events

/-- A limit of one millisecond. -/
def shortLimit : Context :=
  { hangingProgram with spec := { hangingProgram.spec with timeout := 1 } }

/-- The deadline passes before the child is scheduled for the first time; then it starts its
program. -/
def outrunsChild : List Event :=
  [.pipe none, .pipe none, .fcntl true true, .fork none, .proceed, .proceed, .tick 1000000,
    .selectTimedOut, .setpgid, .exec none, .readFailed .eagain, .readFailed .eagain]

/-- The run counts as timed out, the program was not killed, and the parent waits for it. -/
theorem signal_outruns_child :
    ¬ Transition.EveryState (step shortLimit) Signalled (initial 0) outrunsChild ∧
      (runFrom shortLimit 0 outrunsChild).map
        (fun state => (state.control, state.child, state.result.timedOut, state.sigkill)) =
          some (.waiting, .running, true, false) := by
  have hrun : (runFrom shortLimit 0 outrunsChild).map
      (fun state => (state.control, state.child, state.result.timedOut, state.sigkill)) =
        some (.waiting, .running, true, false) := by decide
  refine ⟨fun h => ?_, hrun⟩
  obtain ⟨final, hfinal, hshape⟩ := Option.map_eq_some_iff.mp hrun
  simp only [Prod.mk.injEq] at hshape
  obtain ⟨_, hchild, htimedOut, hsigkill⟩ := hshape
  have hsignalled := h.final hfinal htimedOut
  simp [hchild, hsigkill, Child.hasExited] at hsignalled

end Process

end RuntimeAnalyzer
