import Mathlib.Data.List.Perm.Subperm
import RuntimeAnalyzer.Process.Descriptors

/-!
# The work of a run

How many steps the parent takes. A turn of its loop reads a byte or closes a pipe unless a signal
interrupts it, so every step is paid by what the program wrote, by a pipe or by a signal:
`State.work` is what is left to pay with, and `work_step` says that a step of the parent takes from
it. `parent_steps_bounded` bounds the steps of every run, and `finishes_once_ended` says that the
parent returns once the program and all that hold its output have ended.
-/

namespace RuntimeAnalyzer

namespace Process

variable {ctx : Context} {state next : State} {event : Event} {stream target : Stream}

/-! ## What is counted -/

/-- A signal interrupts a call of the parent. -/
def Event.interrupted : Event → Bool
  | selectFailed error | readFailed error | waitFailed error => error = .eintr
  | _ => false

/-- The steps of the parent among some events. -/
def parentSteps (events : List Event) : Nat :=
  events.countP fun event => !event.ofChild

/-- The signals that interrupt the parent. -/
def interruptions (events : List Event) : Nat :=
  events.countP (·.interrupted)

/-- The bytes that go into either pipe. -/
def bytesWritten (events : List Event) : Nat :=
  (written .stdout events).length + (written .stderr events).length

/-! ## What is left to pay with -/

/-- What a pipe pays for: the end of it, and each byte in it. -/
def Pipe.work (pipe : Pipe) : Nat :=
  (if pipe.isOpen then 3 else 0) + 4 * pipe.buffer.length

/-- The steps to the return if no pipe has anything more to give. -/
def State.distance (state : State) : Nat :=
  match state.control with
  | .stdoutPipe => 10
  | .stderrPipe => 9
  | .setNonBlocking => 8
  | .fork => 7
  | .arm => 6
  | .head => 5
  | .select _ _ => 4
  -- What a readable pipe gives pays for the way back to the head.
  | .drain stream _ false => if (state.pipe stream).readable then 3 else 6
  | .drain _ rest true => rest.length + 2
  | .waiting => 1
  | .returned => 0

def State.work (state : State) : Nat :=
  state.distance + (state.stdoutPipe.work + state.stderrPipe.work)

/-- In the loop, the streams after the one in turn are still as `select` reported them. -/
def RestReadable (state : State) : Prop :=
  ∀ stream rest, state.control = .drain stream rest false →
    ∀ target ∈ rest, (state.pipe target).readable = true

/-! ## Pipes -/

theorem readable_iff {pipe : Pipe} :
    pipe.readable = true ↔ pipe.buffer ≠ [] ∨ pipe.hasWriter = false := by
  simp [Pipe.readable]

/-- Setting a pipe changes what that pipe pays for. -/
theorem work_set_pipe (pipe : Pipe) :
    (state.setPipe target pipe).stdoutPipe.work + (state.setPipe target pipe).stderrPipe.work +
        (state.pipe target).work =
      state.stdoutPipe.work + state.stderrPipe.work + pipe.work := by
  cases target <;> simp only [State.setPipe, State.pipe] <;> omega

/-- The end of a pipe pays when it is closed. -/
theorem work_close_pipe (hopen : (state.pipe target).isOpen = true) :
    (state.closePipe target).stdoutPipe.work + (state.closePipe target).stderrPipe.work + 3 =
      state.stdoutPipe.work + state.stderrPipe.work := by
  have hset := @work_set_pipe state target { state.pipe target with isOpen := false }
  simp only [Pipe.work, hopen, if_true, Bool.false_eq_true, if_false] at hset
  show (state.setPipe target _).stdoutPipe.work + (state.setPipe target _).stderrPipe.work + 3 = _
  simp only [Pipe.work]
  omega

/-- The bytes that are read pay. -/
theorem work_take {count : Nat} (hcount : count ≤ (state.pipe target).buffer.length) :
    let bytes := (state.pipe target).buffer
    let next := ((state.append target (bytes.take count)).setPipe target
      { state.pipe target with buffer := bytes.drop count }).call [.read ⟨target, false⟩]
    next.stdoutPipe.work + next.stderrPipe.work + 4 * count =
      state.stdoutPipe.work + state.stderrPipe.work := by
  intro bytes next
  have hset := @work_set_pipe (state.append target (bytes.take count)) target
    { state.pipe target with buffer := bytes.drop count }
  have hsame : (state.append target (bytes.take count)).stdoutPipe.work +
      (state.append target (bytes.take count)).stderrPipe.work =
        state.stdoutPipe.work + state.stderrPipe.work := by
    cases target <;> rfl
  have hpipe : Pipe.work { state.pipe target with buffer := bytes.drop count } + 4 * count =
      (state.pipe target).work := by
    simp only [Pipe.work, bytes, List.length_drop]
    omega
  rw [hsame, pipe_append] at hset
  show (State.setPipe _ _ _).stdoutPipe.work + (State.setPipe _ _ _).stderrPipe.work + _ = _
  omega

/-- A closed pipe pays for its bytes only. -/
theorem work_leave_loop :
    state.leaveLoop.stdoutPipe.work + state.leaveLoop.stderrPipe.work ≤
      state.stdoutPipe.work + state.stderrPipe.work := by
  simp only [State.leaveLoop, Pipe.work, Bool.false_eq_true, if_false]
  omega

theorem open_streams_length_le : state.openStreams.length ≤ 2 :=
  List.length_filter_le _ _

/-! ## Back to the head -/

/-- On to streams that are readable. -/
theorem work_drain_then_head {streams : List Stream}
    (hready : ∀ target ∈ streams, (state.pipe target).readable = true) :
    (state.drainThen streams false).work ≤
      (if streams = [] then 5 else 3) + (state.stdoutPipe.work + state.stderrPipe.work) := by
  cases streams with
  | nil => exact Nat.le_refl _
  | cons stream rest =>
      have hfirst := hready stream List.mem_cons_self
      have hsame : ((state.drainThen (stream :: rest) false).pipe stream).readable = true := by
        rw [pipe_drain_then]
        exact hfirst
      have hdistance : (state.drainThen (stream :: rest) false).distance = 3 := by
        show (if _ then 3 else 6) = 3
        rw [if_pos hsame]
      rw [State.work, hdistance, if_neg (by simp)]
      exact Nat.le_refl _

/-- On to streams that are read for the last time. -/
theorem work_drain_then_leave (streams : List Stream) :
    (state.drainThen streams true).work ≤
      streams.length + 1 + (state.stdoutPipe.work + state.stderrPipe.work) := by
  cases streams with
  | nil => exact Nat.add_le_add_left work_leave_loop 1
  | cons stream rest => exact Nat.le_refl _

/-! ## The streams in turn -/

/-- A step of another process leaves a readable pipe readable. -/
theorem readable_child_step (h : step ctx state event = some next) (hevent : event.ofChild = true)
    (hready : (state.pipe stream).readable = true) : (next.pipe stream).readable = true := by
  rw [readable_iff] at hready ⊢
  refine hready.imp (fun hbytes => ?_) (no_writer_child_step h hevent)
  cases child_move h hevent with
  | rests _ _ hnext | ends _ _ _ hnext =>
      subst hnext
      cases stream <;> exact hbytes
  | @writes target _ _ _ hnext =>
      subst hnext
      by_cases hsame : stream = target
      · subst hsame
        simp [hbytes]
      · simpa [hsame] using hbytes
  | @setsEnds target _ hnext hbuffer =>
      subst hnext
      by_cases hsame : stream = target
      · subst hsame
        simpa [hbuffer] using hbytes
      · simpa [hsame] using hbytes

/-- What follows in turn is as it was when the parent goes on to it. -/
theorem rest_readable_drain_then {streams : List Stream} {leave : Bool}
    (hready : leave = false → ∀ target ∈ streams, (state.pipe target).readable = true) :
    RestReadable (state.drainThen streams leave) := by
  intro stream rest hcontrol target hmem
  cases streams with
  | nil => cases leave <;> cases hcontrol
  | cons first others =>
      cases hcontrol
      rw [pipe_drain_then]
      exact hready rfl target (List.mem_cons_of_mem _ hmem)

/-- Out of the loop or at its head, nothing is in turn. -/
theorem rest_readable_of_quiet (h : state.control.quiet = true ∨ state.control.phase = .setUp ∨
    state.control = .arm) : RestReadable state := by
  intro stream rest hcontrol
  simp [hcontrol, Control.quiet, Control.phase] at h

/-- The streams that stay in turn while one of them is read. -/
theorem rest_readable_again {rest : List Stream} {leave : Bool} (hpipes : PipesOpen state)
    (hrest : RestReadable state) (hcontrol : state.control = .drain target rest leave)
    (hnext : next.control = state.control)
    (hother : ∀ stream, stream ≠ target → next.pipe stream = state.pipe stream) :
    RestReadable next := by
  intro stream others hdrain other hmem
  have hsame : state.control = .drain stream others false := hnext ▸ hdrain
  obtain ⟨hnodup, -⟩ := hpipes.reading _ _ _ hsame
  obtain rfl : target = stream := by
    rw [hcontrol] at hsame
    cases hsame
    rfl
  have hne : other ≠ target := fun heq => (List.nodup_cons.mp hnodup).1 (heq ▸ hmem)
  rw [hother other hne]
  exact hrest _ _ hsame other hmem

/-- The streams after the one that was read last are readable. -/
theorem rest_still_readable {middle : State} {rest : List Stream} {leave : Bool}
    (hpipes : PipesOpen state) (hrest : RestReadable state)
    (hcontrol : state.control = .drain target rest leave)
    (hother : ∀ stream, stream ≠ target → middle.pipe stream = state.pipe stream) :
    leave = false → ∀ stream ∈ rest, (middle.pipe stream).readable = true := by
  rintro rfl stream hmem
  obtain ⟨hnodup, -⟩ := hpipes.reading _ _ _ hcontrol
  have hne : stream ≠ target := fun heq => (List.nodup_cons.mp hnodup).1 (heq ▸ hmem)
  rw [hother stream hne]
  exact hrest _ _ hcontrol stream hmem

/-- Every step keeps the streams in turn readable. -/
theorem rest_readable_step (hpipes : PipesOpen state) (hrest : RestReadable state)
    (h : step ctx state event = some next) : RestReadable next := by
  cases hevent : event.ofChild with
  | true =>
      intro stream rest hcontrol target hmem
      rw [(child_step h hevent).control] at hcontrol
      exact readable_child_step h hevent (hrest stream rest hcontrol target hmem)
  | false =>
      cases parent_move h hevent with
      | makesStdout | makesStderr | setsNonBlocking =>
          exact rest_readable_of_quiet (.inr (.inl rfl))
      | forks => exact rest_readable_of_quiet (.inr (.inr rfl))
      | stdoutFails | stderrFails | forkFails | arms | endsLoop | selects | selectRetries
        | selectFails | waits | waitFails => exact rest_readable_of_quiet (.inl rfl)
      | selectReady =>
          exact rest_readable_drain_then fun _ target hmem => (List.mem_filter.mp hmem).2
      | selectTimesOut => exact rest_readable_drain_then (by simp)
      | @reads count target rest leave hcontrol =>
          refine rest_readable_again hpipes hrest hcontrol ?_ fun stream hne => by simp [hne]
          show (State.setPipe _ _ _).control = _
          rw [control_set_pipe, control_append]
      | readRetries hcontrol =>
          exact rest_readable_again hpipes hrest hcontrol rfl fun stream _ => pipe_call _
      | readAgain hcontrol =>
          exact rest_readable_drain_then
            (rest_still_readable hpipes hrest hcontrol fun stream _ => pipe_call _)
      | readsEof hcontrol | readFails hcontrol =>
          refine rest_readable_drain_then (rest_still_readable hpipes hrest hcontrol ?_)
          intro stream hne
          simp [State.closePipe, hne]
      | waitRetries => exact hrest

/-! ## One step -/

/-- Where the parent stands in a read. -/
theorem distance_drain {rest : List Stream} {leave : Bool}
    (hcontrol : state.control = .drain target rest leave) :
    state.distance =
      if leave then rest.length + 2 else if (state.pipe target).readable then 3 else 6 := by
  unfold State.distance
  rw [hcontrol]
  cases leave <;> rfl

/-- Reading on to the next stream, or back to the head, after the last of a pipe. -/
theorem work_leaves_stream {middle : State} {rest : List Stream} {leave : Bool} {spent : Nat}
    (hcontrol : state.control = .drain target rest leave)
    (hrest : leave = false → ∀ stream ∈ rest, (middle.pipe stream).readable = true)
    (hspent : middle.stdoutPipe.work + middle.stderrPipe.work + spent =
      state.stdoutPipe.work + state.stderrPipe.work)
    (hpaid : leave = false → (state.pipe target).readable = true → 3 ≤ spent) :
    (middle.drainThen rest leave).work + 1 ≤ state.work := by
  rw [State.work, State.work, distance_drain hcontrol, ← State.work]
  cases leave with
  | true =>
      have hleave := @work_drain_then_leave middle rest
      rw [if_pos rfl]
      omega
  | false =>
      have hhead := @work_drain_then_head middle rest (hrest rfl)
      rw [if_neg (by simp)]
      cases hready : (state.pipe target).readable with
      | true =>
          have hthree := hpaid rfl hready
          rw [if_pos rfl]
          split at hhead <;> omega
      | false =>
          rw [if_neg (by simp)]
          split at hhead <;> omega

/-- Closing the stream in turn pays for the way on. -/
theorem work_shuts {rest : List Stream} {leave : Bool} (hpipes : PipesOpen state)
    (hrest : RestReadable state) (hcontrol : state.control = .drain target rest leave) :
    (((state.call [.read ⟨target, false⟩]).closePipe target).drainThen rest leave).work + 1 ≤
      state.work := by
  have hopen := (hpipes.reading _ _ _ hcontrol).2 target List.mem_cons_self
  have hclosed := @work_close_pipe (state.call [.read ⟨target, false⟩]) target
    (by rw [pipe_call]; exact hopen)
  refine work_leaves_stream hcontrol (rest_still_readable hpipes hrest hcontrol ?_) hclosed
    fun _ _ => Nat.le_refl 3
  intro stream hne
  simp [State.closePipe, hne]

/-- Reading bytes takes from what they pay. -/
theorem work_reads {count : Nat} {rest : List Stream} {leave : Bool}
    (hcontrol : state.control = .drain target rest leave)
    (hcount : 1 ≤ count ∧ count ≤ 4096 ∧ count ≤ (state.pipe target).buffer.length)
    (hnext : next.control = state.control)
    (hspent : next.stdoutPipe.work + next.stderrPipe.work + 4 * count =
      state.stdoutPipe.work + state.stderrPipe.work) : next.work + 1 ≤ state.work := by
  have hready : (state.pipe target).readable = true := by
    rw [readable_iff]
    exact .inl (List.ne_nil_of_length_pos (by omega))
  rw [State.work, State.work, distance_drain hcontrol, distance_drain (hnext.trans hcontrol),
    if_pos hready]
  cases leave with
  | true =>
      simp only [if_true]
      omega
  | false =>
      simp only [Bool.false_eq_true, if_false]
      split <;> omega

/-- A step that leaves the pipes alone. -/
theorem work_of_same {more : Nat}
    (hsame : next.stdoutPipe.work + next.stderrPipe.work =
      state.stdoutPipe.work + state.stderrPipe.work)
    (hdistance : next.distance + 1 ≤ state.distance + more) :
    next.work + 1 ≤ state.work + more := by
  rw [State.work, State.work, hsame]
  omega

/-- A step of the parent takes from what is left, unless a signal pays for it. -/
theorem work_parent_step (hpipes : PipesOpen state) (hrest : RestReadable state)
    (h : step ctx state event = some next) (hevent : event.ofChild = false) :
    next.work + 1 ≤ state.work + if event.interrupted then 2 else 0 := by
  cases parent_move h hevent with
  | makesStdout hcontrol | stdoutFails hcontrol | makesStderr hcontrol | stderrFails hcontrol
    | setsNonBlocking hcontrol | forks hcontrol | forkFails hcontrol | arms hcontrol
    | selects hcontrol | selectRetries hcontrol | waits hcontrol | waitRetries hcontrol
    | waitFails hcontrol =>
      refine work_of_same rfl ?_
      simp [State.distance, State.fail, State.call, hcontrol, Event.interrupted]
  | endsLoop hcontrol =>
      have hleave := @work_leave_loop state
      simp only [State.work, State.distance, hcontrol]
      show 1 + _ + 1 ≤ _
      omega
  | selectReady hcontrol hready =>
      have hhead := @work_drain_then_head state state.readyStreams
        fun target hmem => (List.mem_filter.mp hmem).2
      rw [if_neg hready] at hhead
      simp only [State.work, State.distance, hcontrol] at hhead ⊢
      omega
  | selectTimesOut hcontrol =>
      have hleave := @work_drain_then_leave
        { state.killGroup with result.timedOut := true } state.openStreams
      have htwo := @open_streams_length_le state
      have hsame : ({ state.killGroup with result.timedOut := true } : State).stdoutPipe.work +
          ({ state.killGroup with result.timedOut := true } : State).stderrPipe.work =
            state.stdoutPipe.work + state.stderrPipe.work := rfl
      have hdistance : state.distance = 4 := by rw [State.distance, hcontrol]
      have hstate : state.work =
        state.distance + (state.stdoutPipe.work + state.stderrPipe.work) := rfl
      omega
  | @selectFails wait since errno hcontrol =>
      have hleave : (State.leaveLoop
          { state with result.error := lit "select failed: " ++ ctx.strerror errno }).work ≤
            1 + (state.stdoutPipe.work + state.stderrPipe.work) :=
        Nat.add_le_add_left work_leave_loop 1
      have hdistance : state.distance = 4 := by rw [State.distance, hcontrol]
      have hstate : state.work =
        state.distance + (state.stdoutPipe.work + state.stderrPipe.work) := rfl
      omega
  | @reads count target rest leave hcontrol hcount =>
      refine Nat.le_add_right_of_le (work_reads hcontrol hcount ?_ (work_take hcount.2.2))
      show (State.setPipe _ _ _).control = _
      rw [control_set_pipe, control_append]
  | readsEof hcontrol | readFails hcontrol =>
      exact Nat.le_add_right_of_le (work_shuts hpipes hrest hcontrol)
  | @readRetries target rest leave hcontrol =>
      have hsame : (state.call [.read ⟨target, false⟩]).work = state.work := by
        rw [State.work, State.work, distance_drain hcontrol,
          @distance_drain (state.call _) _ _ _ hcontrol, pipe_call]
        rfl
      simp [hsame, Event.interrupted]
  | readAgain hcontrol hquiet =>
      refine Nat.le_add_right_of_le
        (@work_leaves_stream _ _ (state.call _) _ _ 0 hcontrol ?_ rfl ?_)
      · exact rest_still_readable hpipes hrest hcontrol fun stream _ => pipe_call _
      · intro _ hready
        simp [hquiet] at hready

/-- Another process adds what it writes to a pipe. -/
theorem work_pipe_child_step (h : step ctx state event = some next) (hevent : event.ofChild = true)
    (stream : Stream) :
    (next.pipe stream).work = (state.pipe stream).work + 4 * (event.writtenTo stream).length := by
  have hcontent := (stream_child_step h hevent : StreamStep stream state next event).content
  have htext : next.text stream = state.text stream := by
    rw [State.text, (child_step h hevent).result, State.text]
  rw [htext, List.append_assoc, List.append_cancel_left_eq] at hcontent
  rw [Pipe.work, Pipe.work, (child_leaves h hevent).2 stream, hcontent, List.length_append]
  omega

/-- Another process takes the parent no further from its return, but by what it writes. -/
theorem work_child_step (h : step ctx state event = some next) (hevent : event.ofChild = true) :
    next.work ≤
      state.work + 4 * ((event.writtenTo .stdout).length + (event.writtenTo .stderr).length) := by
  have hdistance : next.distance ≤ state.distance := by
    unfold State.distance
    rw [(child_step h hevent).control]
    cases state.control with
    | drain stream rest leave =>
        cases leave with
        | true => exact Nat.le_refl _
        | false =>
            have hready := @readable_child_step ctx state next event stream h hevent
            dsimp only
            cases hstate : (state.pipe stream).readable with
            | true => simp [hready hstate]
            | false => cases (next.pipe stream).readable <;> simp
    | _ => exact Nat.le_refl _
  have hstdout := work_pipe_child_step h hevent .stdout
  have hstderr := work_pipe_child_step h hevent .stderr
  simp only [State.pipe] at hstdout hstderr
  rw [State.work, State.work, hstdout, hstderr]
  omega

/-! ## Runs -/

theorem parent_steps_concat (events : List Event) (event : Event) :
    parentSteps (events ++ [event]) = parentSteps events + if event.ofChild then 0 else 1 := by
  cases h : event.ofChild <;> simp [parentSteps, h]

theorem interruptions_concat (events : List Event) (event : Event) :
    interruptions (events ++ [event]) =
      interruptions events + if event.interrupted then 1 else 0 := by
  simp [interruptions, List.countP_cons]

theorem bytes_written_concat (events : List Event) (event : Event) :
    bytesWritten (events ++ [event]) =
      bytesWritten events +
        ((event.writtenTo .stdout).length + (event.writtenTo .stderr).length) := by
  have hone : ∀ stream, written stream [event] = event.writtenTo stream := fun stream => by
    simp [written]
  simp only [bytesWritten, written_append, hone, List.length_append]
  omega

/-- The pipes are open where they are read, whatever happens. -/
theorem pipes_open_step (hpipes : PipesOpen state) (h : step ctx state event = some next) :
    PipesOpen next := by
  cases hevent : event.ofChild with
  | true => exact hpipes.congr (child_step h hevent).control (child_leaves h hevent).2
  | false =>
      by_cases hpipe : event = .pipe none
      · subst hpipe
        cases parent_move h rfl with
        | makesStdout hcontrol | makesStderr hcontrol =>
            have hopen := hpipes.start (.inl (by rw [hcontrol]; rfl))
            exact pipes_open_before hopen (fun stream => by cases stream <;> rfl) (.inl rfl)
      · exact (descriptor_step h hevent hpipe hpipes).pipes

/-- What holds of the work after some events that begin with a given amount of it. -/
structure Worked (start : Nat) (history : List Event) (state : State) : Prop where
  pipes : PipesOpen state
  rest : RestReadable state
  paid : state.work + parentSteps history ≤
    start + 4 * bytesWritten history + 2 * interruptions history

theorem worked_step {start : Nat} {history : List Event} (hstate : Worked start history state)
    (h : step ctx state event = some next) : Worked start (history ++ [event]) next := by
  refine ⟨pipes_open_step hstate.pipes h, rest_readable_step hstate.pipes hstate.rest h, ?_⟩
  have hpaid := hstate.paid
  rw [parent_steps_concat, interruptions_concat, bytes_written_concat]
  cases hevent : event.ofChild with
  | true =>
      have hwork := work_child_step h hevent
      rw [if_pos rfl]
      split <;> omega
  | false =>
      have hwork := work_parent_step hstate.pipes hstate.rest h hevent
      rw [if_neg (by simp)]
      split at hwork <;> rename_i hinterrupted <;> simp [hinterrupted] <;> omega

/-- From any state, the steps are paid by what is left, and by what comes in. -/
theorem worked_run {events : List Event} {final : State} (hpipes : PipesOpen state)
    (hrest : RestReadable state) (hrun : Transition.run (step ctx) state events = some final) :
    Worked state.work events final :=
  Transition.run_history worked_step ⟨hpipes, hrest, Nat.le_refl _⟩ hrun

theorem worked_from_start {clock : Int} {events : List Event} {final : State}
    (hrun : runFrom ctx clock events = some final) : Worked 16 events final :=
  worked_run (balanced_initial clock).pipes (rest_readable_of_quiet (.inr (.inl rfl))) hrun

/-- The parent takes no more steps than the bytes that are written and the signals that come
account for: it never turns in its loop for nothing. -/
theorem parent_steps_bounded {clock : Int} {events : List Event} {final : State}
    (hrun : runFrom ctx clock events = some final) :
    parentSteps events ≤ 16 + 4 * bytesWritten events + 2 * interruptions events := by
  have hpaid := (worked_from_start hrun).paid
  omega

/-- The steps of a run that reads seven bytes and meets one signal. -/
theorem parent_steps_bounded_both :
    bytesWritten printsAndExits = 7 ∧ interruptions printsAndExits = 1 ∧
      parentSteps printsAndExits ≤ 16 + 4 * 7 + 2 * 1 := by
  obtain ⟨final, hrun⟩ : ∃ final, runFrom hangingProgram 0 printsAndExits = some final :=
    ⟨_, rfl⟩
  exact ⟨by decide, by decide, parent_steps_bounded hrun⟩

/-! ## The return -/

/-- The child has exited, and no process holds a write end. -/
structure Ended (state : State) : Prop where
  exited : state.child.hasExited = true
  silent : ∀ stream, (state.pipe stream).hasWriter = false

/-- A step of the parent that no signal interrupts. -/
def Event.advances (event : Event) : Bool :=
  !event.ofChild && !event.interrupted

/-- The parent waits for something that can come: `select` is called on open pipes, and a child that
was reaped is not waited for. -/
structure Waits (state : State) : Prop where
  selects : ∀ wait since, state.control = .select wait since → state.openStreams ≠ []
  reaps : ∀ status, state.child = .reaped status → state.control = .returned

theorem waits_initial (clock : Int) : Waits (initial clock) :=
  ⟨by simp [initial], by simp [initial]⟩

/-- Other processes leave the streams that are open. -/
theorem open_streams_child_step (h : step ctx state event = some next)
    (hevent : event.ofChild = true) : next.openStreams = state.openStreams := by
  simp only [State.openStreams, (child_leaves h hevent).2]

/-- Only the parent reaps the child. -/
theorem reaped_child_step {status : WaitStatus} (h : step ctx state event = some next)
    (hevent : event.ofChild = true) (hreaped : next.child = .reaped status) :
    state.child = .reaped status := by
  have hchild := child_step h hevent
  cases hend : event.endStatus with
  | some ended => simp [(hchild.ended ended hend).2] at hreaped
  | none =>
      rcases hchild.unended hend with hsame | ⟨-, hlive⟩
      · rw [← hsame, hreaped]
      · simp [hreaped, Child.live] at hlive

/-- A step that leaves a child which was not reaped. -/
theorem waits_of_child (hstate : Waits state) (hchild : next.child = state.child)
    (hcontrol : state.control ≠ .returned)
    (hselects : ∀ wait since, next.control = .select wait since → next.openStreams ≠ []) :
    Waits next :=
  ⟨hselects, fun status h => absurd (hstate.reaps status (hchild ▸ h)) hcontrol⟩

/-- Reading on is no call of `select`. -/
theorem drain_then_ne_select {streams : List Stream} {leave : Bool} (wait : Option Nat)
    (since : Int) : (state.drainThen streams leave).control ≠ .select wait since := by
  cases streams <;> cases leave <;> simp [State.drainThen, State.leaveLoop]

theorem waits_step (hstate : Waits state) (h : step ctx state event = some next) : Waits next := by
  cases hevent : event.ofChild with
  | true =>
      have hcontrol := (child_step h hevent).control
      refine ⟨fun wait since hselect => ?_, fun status hreaped => ?_⟩
      · rw [open_streams_child_step h hevent]
        exact hstate.selects wait since (hcontrol ▸ hselect)
      · rw [hcontrol]
        exact hstate.reaps status (reaped_child_step h hevent hreaped)
  | false =>
      cases parent_move h hevent with
      | makesStdout hcontrol | stdoutFails hcontrol | makesStderr hcontrol | stderrFails hcontrol
        | setsNonBlocking hcontrol | forkFails hcontrol | arms hcontrol | endsLoop hcontrol
        | selectRetries hcontrol | selectFails hcontrol | waitRetries hcontrol
        | waitFails hcontrol =>
          refine waits_of_child hstate rfl (by simp [hcontrol]) fun wait since hselect => ?_
          first | cases hselect | simp [hcontrol] at hselect
      | forks => exact ⟨by simp, by simp⟩
      | selects hcontrol hopen =>
          exact waits_of_child hstate rfl (by simp [hcontrol]) fun _ _ _ => hopen
      | waits => exact ⟨by simp, by simp⟩
      | selectReady hcontrol =>
          exact waits_of_child hstate (keeps_drain_then _ _ _).child (by simp [hcontrol])
            fun wait since h => absurd h (drain_then_ne_select wait since)
      | selectTimesOut hcontrol =>
          exact waits_of_child hstate (keeps_drain_then _ _ _).child (by simp [hcontrol])
            fun wait since h => absurd h (drain_then_ne_select wait since)
      | reads hcontrol =>
          refine waits_of_child hstate ?_ (by simp [hcontrol]) fun wait since hselect => ?_
          · exact ((keeps_append _ _ _).trans ((keeps_set_pipe _ _ _).trans (keeps_call _ _))).child
          · have hsame : state.control = .select wait since := by
              rw [← hselect]
              show _ = (State.setPipe _ _ _).control
              rw [control_set_pipe, control_append]
            simp [hcontrol] at hsame
      | readRetries hcontrol =>
          exact waits_of_child hstate rfl (by simp [hcontrol]) fun wait since hselect => by
            simp [State.call, hcontrol] at hselect
      | readsEof hcontrol | readFails hcontrol =>
          exact waits_of_child hstate
            (((keeps_call _ _).trans (keeps_close_pipe _ _)).trans (keeps_drain_then _ _ _)).child
            (by simp [hcontrol]) fun wait since h => absurd h (drain_then_ne_select wait since)
      | readAgain hcontrol =>
          exact waits_of_child hstate ((keeps_call _ _).trans (keeps_drain_then _ _ _)).child
            (by simp [hcontrol]) fun wait since h => absurd h (drain_then_ne_select wait since)

/-! ## Once the program has ended -/

theorem has_writer_drain_then (streams : List Stream) (leave : Bool) :
    ((state.drainThen streams leave).pipe stream).hasWriter = (state.pipe stream).hasWriter := by
  cases streams <;> cases leave <;> cases stream <;> rfl

theorem has_writer_close_pipe :
    ((state.closePipe target).pipe stream).hasWriter = (state.pipe stream).hasWriter := by
  cases target <;> cases stream <;> rfl

/-- After the fork, the parent changes no write end. -/
theorem has_writer_parent_step (h : step ctx state event = some next)
    (hevent : event.ofChild = false) (hphase : state.control.phase ≠ .setUp) :
    (next.pipe stream).hasWriter = (state.pipe stream).hasWriter := by
  cases parent_move h hevent with
  | makesStdout hcontrol | stdoutFails hcontrol | makesStderr hcontrol | stderrFails hcontrol
    | setsNonBlocking hcontrol | forks hcontrol | forkFails hcontrol =>
      exact absurd (by rw [hcontrol]; rfl) hphase
  | arms | endsLoop | selects | selectRetries | selectFails | readRetries | waits | waitRetries
    | waitFails => cases stream <;> rfl
  | selectReady => exact has_writer_drain_then _ _
  | selectTimesOut =>
      rw [has_writer_drain_then]
      cases stream <;> rfl
  | @reads count target => cases target <;> cases stream <;> rfl
  | readsEof | readFails =>
      rw [has_writer_drain_then, has_writer_close_pipe, pipe_call]
  | readAgain => rw [has_writer_drain_then, pipe_call]

/-- The parent goes on from a program that has ended. -/
structure Unattended (state : State) : Prop where
  ended : Ended state
  forked : state.control.phase ≠ .setUp
  waits : Waits state

theorem unattended_step (hstate : Unattended state) (hevent : event.advances = true)
    (h : step ctx state event = some next) : Unattended next := by
  have hparent : event.ofChild = false := by
    simp only [Event.advances, Bool.and_eq_true, Bool.not_eq_true'] at hevent
    exact hevent.1
  refine ⟨⟨?_, fun stream => ?_⟩, fun hnext => ?_, waits_step hstate.waits h⟩
  · have hexited := hstate.ended.exited
    cases parent_step h hparent with
    | setsUp _ _ hphase | setUpFails _ _ hphase | forks hphase =>
        exact absurd hphase hstate.forked
    | loops _ _ _ _ _ _ hkeeps | ends _ _ _ hkeeps | leaves _ _ _ _ hkeeps =>
        rwa [hkeeps.child]
    | selectFails _ _ _ hchild | kills _ _ _ hchild | waitFails _ _ _ hchild => rwa [hchild]
    | returns _ _ _ hchild =>
        rw [hchild]
        rfl
  · rw [has_writer_parent_step h hparent hstate.forked]
    exact hstate.ended.silent stream
  · cases parent_step h hparent with
    | setsUp _ _ hphase => exact hstate.forked hphase
    | setUpFails _ _ hphase => exact hstate.forked hphase
    | forks hphase => exact hstate.forked hphase
    | loops _ _ _ _ _ hphase => simp [hphase] at hnext
    | ends _ _ hcontrol => simp [hcontrol, Control.phase] at hnext
    | selectFails _ _ hcontrol => simp [hcontrol, Control.phase] at hnext
    | kills _ _ hphase => simp [hphase] at hnext
    | leaves _ _ _ hphase => simp [hphase] at hnext
    | returns _ _ hcontrol => simp [hcontrol, Control.phase] at hnext
    | waitFails _ _ hcontrol => simp [hcontrol, Control.phase] at hnext

/-- Without writers, every call of the parent gets an answer. -/
theorem unattended_goes_on (hstate : Unattended state) :
    state.control = .returned ∨ ∃ event next, event.advances = true ∧ event.fails = false ∧
      step ctx state event = some next := by
  have hgo : ∀ {event next}, event.advances = true → event.fails = false →
      ParentMove ctx state event next → state.control = .returned ∨ ∃ event next,
        event.advances = true ∧ event.fails = false ∧ step ctx state event = some next :=
    fun hadvances hfails hmove => .inr ⟨_, _, hadvances, hfails, step_of_move hmove⟩
  have hforked := hstate.forked
  cases hcontrol : state.control with
  | stdoutPipe | stderrPipe | setNonBlocking | fork =>
      simp [hcontrol, Control.phase] at hforked
  | arm => exact hcontrol ▸ hgo rfl rfl (.arms hcontrol)
  | head =>
      rw [← hcontrol]
      by_cases hopen : state.openStreams = []
      · exact hgo rfl rfl (.endsLoop hcontrol hopen)
      · exact hgo rfl rfl (.selects hcontrol hopen)
  | select wait since =>
      rw [← hcontrol]
      -- An open pipe without a writer is at its end, so `select` reports it.
      have hready : state.readyStreams = state.openStreams := by
        refine List.filter_eq_self.mpr fun stream _ => ?_
        exact readable_iff.mpr (.inr (hstate.ended.silent stream))
      have hopen := hstate.waits.selects wait since hcontrol
      exact hgo rfl rfl (.selectReady hcontrol (by rwa [hready]))
  | drain stream rest leave =>
      rw [← hcontrol]
      by_cases hempty : (state.pipe stream).buffer = []
      · exact hgo rfl rfl (.readsEof hcontrol hempty (hstate.ended.silent stream))
      · have hlength := List.length_pos_of_ne_nil hempty
        exact hgo rfl rfl (.reads hcontrol ⟨Nat.le_refl 1, by omega, hlength⟩)
  | waiting =>
      rw [← hcontrol]
      have hexited := hstate.ended.exited
      cases hchild : state.child with
      | zombie status => exact hgo rfl rfl (.waits hcontrol hchild)
      | reaped status =>
          have hreturned := hstate.waits.reaps status hchild
          simp [hcontrol] at hreturned
      | absent | starting next | running => simp [hchild, Child.hasExited] at hexited
  | returned => exact .inl rfl

/-- Each stream is in turn once at most. -/
theorem streams_length_le {streams : List Stream} (h : streams.Nodup) : streams.length ≤ 2 := by
  have hsub : streams ⊆ [Stream.stdout, .stderr] := fun stream _ => by cases stream <;> simp
  exact (List.subperm_of_subset h hsub).length_le

/-- What is left once the parent has forked. -/
theorem work_le (hpipes : PipesOpen state) (hforked : state.control.phase ≠ .setUp) :
    state.work ≤
      12 + 4 * ((state.pipe .stdout).buffer.length + (state.pipe .stderr).buffer.length) := by
  have hdistance : state.distance ≤ 6 := by
    unfold State.distance
    cases hcontrol : state.control with
    | stdoutPipe | stderrPipe | setNonBlocking | fork =>
        simp [hcontrol, Control.phase] at hforked
    | drain stream rest leave =>
        cases leave with
        | false =>
            dsimp only
            split <;> omega
        | true =>
            have hlength := streams_length_le (hpipes.reading _ _ _ hcontrol).1
            rw [List.length_cons] at hlength
            show rest.length + 2 ≤ 6
            omega
    | _ => simp
  have hpipe : ∀ pipe : Pipe, pipe.work ≤ 3 + 4 * pipe.buffer.length := by
    intro pipe
    unfold Pipe.work
    split <;> omega
  have hstdout := hpipe state.stdoutPipe
  have hstderr := hpipe state.stderrPipe
  simp only [State.work, State.pipe]
  omega

/-- From here on the parent comes to its return by its own steps: there is always another one, and
they are bounded by the bytes it has yet to read. -/
structure Finishes (ctx : Context) (state : State) : Prop where
  bounded : ∀ more final, (∀ event ∈ more, event.advances = true) →
    Transition.run (step ctx) state more = some final →
      more.length ≤
        12 + 4 * ((state.pipe .stdout).buffer.length + (state.pipe .stderr).buffer.length)
  goesOn : ∀ more final, (∀ event ∈ more, event.advances = true) →
    Transition.run (step ctx) state more = some final →
      final.control = .returned ∨ ∃ event next, event.advances = true ∧ event.fails = false ∧
        step ctx final event = some next
  returns : ∃ more final, (∀ event ∈ more, event.advances = true) ∧
    Transition.run (step ctx) state more = some final ∧ final.control = .returned

/-- Steps of the parent alone bring neither bytes nor signals. -/
theorem only_parent_steps {events : List Event} (h : ∀ event ∈ events, event.advances = true) :
    parentSteps events = events.length ∧ bytesWritten events = 0 ∧ interruptions events = 0 := by
  have hparts : ∀ event ∈ events, event.ofChild = false ∧ event.interrupted = false := by
    simpa [Event.advances] using h
  have hwritten : ∀ stream, written stream events = [] := by
    intro stream
    rw [written, List.flatMap_eq_nil_iff]
    intro event hmem
    refine written_to_of_not_write ?_
    have hparent := (hparts event hmem).1
    cases event <;> first | rfl | cases hparent
  refine ⟨?_, ?_, ?_⟩
  · rw [parentSteps, List.countP_eq_length]
    intro event hmem
    simp [(hparts event hmem).1]
  · simp [bytesWritten, hwritten]
  · rw [interruptions, List.countP_eq_zero]
    intro event hmem
    simp [(hparts event hmem).2]

/-- Once the program has ended, and all that held its output have, the parent returns, whatever
fails on the way: its own steps are bounded and never stuck before. -/
theorem finishes_once_ended {clock : Int} {events : List Event}
    (hrun : runFrom ctx clock events = some state) (hended : Ended state) : Finishes ctx state := by
  have hworked := worked_from_start hrun
  have hforked : state.control.phase ≠ .setUp := by
    intro hphase
    have hexited := hended.exited
    simp [((outcome_run hrun).setUp hphase).1, Child.hasExited] at hexited
  have hstate : Unattended state :=
    ⟨hended, hforked, Transition.run_invariant waits_step (waits_initial clock) hrun⟩
  have hbounded : ∀ more final, (∀ event ∈ more, event.advances = true) →
      Transition.run (step ctx) state more = some final →
        more.length ≤
          12 + 4 * ((state.pipe .stdout).buffer.length + (state.pipe .stderr).buffer.length) := by
    intro more final hmore hfinal
    obtain ⟨hsteps, hbytes, hsignals⟩ := only_parent_steps hmore
    have hpaid := (worked_run hworked.pipes hworked.rest hfinal).paid
    have hwork := work_le hworked.pipes hforked
    omega
  have hgoesOn : ∀ more final, (∀ event ∈ more, event.advances = true) →
      Transition.run (step ctx) state more = some final →
        final.control = .returned ∨ ∃ event next, event.advances = true ∧ event.fails = false ∧
          step ctx final event = some next := by
    intro more final hmore hfinal
    exact unattended_goes_on (Transition.run_invariant_on
      (fun hadvances hunattended hstep => unattended_step hunattended hadvances hstep)
      hmore hstate hfinal)
  refine ⟨hbounded, hgoesOn, Transition.exists_run_to_goal hbounded ?_⟩
  intro more final hmore hfinal
  refine (hgoesOn more final hmore hfinal).imp id fun hnext => ?_
  obtain ⟨event, next, hadvances, -, hstep⟩ := hnext
  exact ⟨event, next, hadvances, hstep⟩

/-- The program prints and exits before the parent has read anything. -/
def exitsUnread : List Event :=
  started ++ [.write .stdout (lit "unread"), .exit 0]

/-- The parent reads what was printed and returns. -/
theorem finishes_once_ended_unread :
    ∃ state, runFrom hangingProgram 0 exitsUnread = some state ∧ Ended state ∧
      Finishes hangingProgram state := by
  obtain ⟨state, hrun, hexited, hstdout, hstderr⟩ :
      ∃ state, runFrom hangingProgram 0 exitsUnread = some state ∧
        state.child.hasExited = true ∧ state.stdoutPipe.hasWriter = false ∧
        state.stderrPipe.hasWriter = false :=
    ⟨_, rfl, by decide, by decide, by decide⟩
  have hended : Ended state := ⟨hexited, fun stream => by cases stream <;> assumption⟩
  exact ⟨state, hrun, hended, finishes_once_ended hrun hended⟩

end Process

end RuntimeAnalyzer
