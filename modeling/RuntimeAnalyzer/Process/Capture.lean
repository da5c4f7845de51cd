import RuntimeAnalyzer.Process.Deadline
import RuntimeAnalyzer.Process.Outcome

/-!
# The captured output

What the parent has read of a stream, followed by what is in the stream's pipe, is what was
written to the stream: no step loses, repeats or reorders a byte. `StreamStep` lists what a step
does to one stream, `Captured` is the invariant of a run, and `returned_captures` says of every
result what its texts hold.
-/

namespace RuntimeAnalyzer

/-- The text of a stream. -/
def ProcessResult.text (result : ProcessResult) : Process.Stream → Bytes
  | .stdout => result.stdoutText
  | .stderr => result.stderrText

namespace Process

variable {ctx : Context} {state next middle : State} {event : Event} {stream target : Stream}

/-! ## What is written and what is read -/

/-- The bytes that an event puts into a stream's pipe. -/
def Event.writtenTo (stream : Stream) : Event → Bytes
  | write target bytes | otherWrite target bytes => if target = stream then bytes else []
  | _ => []

/-- Everything that was written to a stream, in order. -/
def written (stream : Stream) (events : List Event) : Bytes :=
  events.flatMap (Event.writtenTo stream)

theorem written_append (stream : Stream) (first second : List Event) :
    written stream (first ++ second) = written stream first ++ written stream second := by
  rw [written, List.flatMap_append, ← written, ← written]

/-- What the parent has read of a stream. -/
def State.text (state : State) (stream : Stream) : Bytes :=
  state.result.text stream

/-- What the steps change of a stream: the bytes read, those in the pipe, and whether it is open. -/
def State.look (state : State) (stream : Stream) : Bytes × Bytes × Bool :=
  (state.text stream, (state.pipe stream).buffer, (state.pipe stream).isOpen)

/-- The streams that are still to be read at the deadline. -/
def Control.pending : Control → List Stream
  | .drain stream rest true => stream :: rest
  | _ => []

/-! ## The operations on one stream -/

@[simp] theorem pipe_call (calls : List FdCall) :
    (state.call calls).pipe stream = state.pipe stream := by
  cases stream <;> rfl

@[simp] theorem text_call (calls : List FdCall) :
    (state.call calls).text stream = state.text stream := by
  cases stream <;> rfl

@[simp] theorem pipe_set_pipe (pipe : Pipe) :
    (state.setPipe target pipe).pipe stream =
      if stream = target then pipe else state.pipe stream := by
  cases target <;> cases stream <;> rfl

@[simp] theorem text_set_pipe (pipe : Pipe) :
    (state.setPipe target pipe).text stream = state.text stream := by
  cases target <;> cases stream <;> rfl

@[simp] theorem pipe_append (bytes : Bytes) :
    (state.append target bytes).pipe stream = state.pipe stream := by
  cases target <;> cases stream <;> rfl

@[simp] theorem text_append (bytes : Bytes) :
    (state.append target bytes).text stream =
      if stream = target then state.text stream ++ bytes else state.text stream := by
  cases target <;> cases stream <;> rfl

@[simp] theorem text_leave_loop : state.leaveLoop.text stream = state.text stream := by
  cases stream <;> rfl

@[simp] theorem pipe_leave_loop :
    state.leaveLoop.pipe stream = { state.pipe stream with isOpen := false } := by
  cases stream <;> rfl

@[simp] theorem pipe_child_ends (status : WaitStatus) :
    (state.childEnds status).pipe stream = { state.pipe stream with leaderEnd := false } := by
  cases stream <;> rfl

@[simp] theorem text_drain_then (streams : List Stream) (leave : Bool) :
    (state.drainThen streams leave).text stream = state.text stream := by
  cases streams <;> cases leave <;> cases stream <;> rfl

@[simp] theorem text_fail (call text : Bytes) :
    (state.fail call text).text stream = state.text stream := by
  cases stream <;> rfl

@[simp] theorem pipe_fail (call text : Bytes) :
    (state.fail call text).pipe stream = state.pipe stream := by
  cases stream <;> rfl

@[simp] theorem buffer_drain_then (streams : List Stream) (leave : Bool) :
    ((state.drainThen streams leave).pipe stream).buffer = (state.pipe stream).buffer := by
  cases streams <;> cases leave <;> cases stream <;> rfl

@[simp] theorem pipe_drain_then (streams : List Stream) :
    (state.drainThen streams false).pipe stream = state.pipe stream := by
  cases streams <;> cases stream <;> rfl

theorem is_open_drain_then (streams : List Stream) (leave : Bool)
    (h : (state.pipe stream).isOpen = false) :
    ((state.drainThen streams leave).pipe stream).isOpen = false := by
  cases streams <;> cases leave <;> cases stream <;> first | exact h | rfl

theorem pending_drain_then (streams : List Stream) (leave : Bool) :
    (state.drainThen streams leave).control.pending = if leave then streams else [] := by
  cases streams <;> cases leave <;> rfl

theorem mem_open_streams : stream ∈ state.openStreams ↔ (state.pipe stream).isOpen = true := by
  cases stream <;> simp [State.openStreams]

theorem closed_of_no_open (h : state.openStreams = []) : (state.pipe stream).isOpen = false := by
  rw [← Bool.not_eq_true, ← mem_open_streams, h]
  exact List.not_mem_nil

/-! ## What a step does to a stream -/

/-- What a step does to the bytes of one stream. -/
inductive StreamStep (stream : Stream) (state next : State) (event : Event) : Prop
  /-- Nothing happens to it. -/
  | rests (htext : next.text stream = state.text stream)
      (hbuffer : (next.pipe stream).buffer = (state.pipe stream).buffer)
      (hopen : (next.pipe stream).isOpen = (state.pipe stream).isOpen)
      (hwritten : event.writtenTo stream = [])
      (hpending : stream ∈ next.control.pending ↔ stream ∈ state.control.pending)
  | writes (htext : next.text stream = state.text stream)
      (hbuffer : (next.pipe stream).buffer = (state.pipe stream).buffer ++ event.writtenTo stream)
      (hstate : (state.pipe stream).isOpen = true) (hopen : (next.pipe stream).isOpen = true)
      (hcontrol : next.control = state.control)
  | reads (count : Nat)
      (htext : next.text stream = state.text stream ++ (state.pipe stream).buffer.take count)
      (hbuffer : (next.pipe stream).buffer = (state.pipe stream).buffer.drop count)
      (hopen : (next.pipe stream).isOpen = (state.pipe stream).isOpen)
      (hwritten : event.writtenTo stream = []) (hcontrol : next.control = state.control)
  /-- Everything has been read. -/
  | empties (htext : next.text stream = state.text stream)
      (hstate : (state.pipe stream).buffer = []) (hbuffer : (next.pipe stream).buffer = [])
      (hopen : (state.pipe stream).isOpen = false → (next.pipe stream).isOpen = false)
      (hwritten : event.writtenTo stream = [])
      (hpending : stream ∈ next.control.pending → stream ∈ state.control.pending)
  /-- The deadline: an open stream is still to be read. -/
  | timesOut (hevent : event = .selectTimedOut) (htext : next.text stream = state.text stream)
      (hbuffer : (next.pipe stream).buffer = (state.pipe stream).buffer)
      (hopen : (next.pipe stream).isOpen = (state.pipe stream).isOpen)
      (hpending : stream ∉ state.control.pending)
  /-- The loop is left without another look at it. -/
  | shuts (htext : next.text stream = state.text stream)
      (hbuffer : (next.pipe stream).buffer = (state.pipe stream).buffer)
      (hopen : (next.pipe stream).isOpen = false) (hwritten : event.writtenTo stream = [])
      (hnext : next.control = .waiting) (hpending : stream ∉ state.control.pending)

/-- A step that changes nothing of the stream. -/
theorem stream_rests (hsame : next.look stream = state.look stream)
    (hcontrol : next.control.pending = state.control.pending)
    (hwritten : event.writtenTo stream = []) : StreamStep stream state next event := by
  simp only [State.look, Prod.mk.injEq] at hsame
  obtain ⟨htext, hbuffer, hopen⟩ := hsame
  exact .rests htext hbuffer hopen hwritten (by rw [hcontrol])

/-- An operation on the ends of a pipe leaves every stream alone. -/
theorem stream_set_ends {pipe : Pipe} (hbuffer : pipe.buffer = (state.pipe target).buffer)
    (hopen : pipe.isOpen = (state.pipe target).isOpen) (hwritten : event.writtenTo stream = []) :
    StreamStep stream state (state.setPipe target pipe) event := by
  refine stream_rests ?_ (by rw [control_set_pipe]) hwritten
  by_cases hsame : stream = target <;> simp [State.look, hsame, hbuffer, hopen]

/-- A write appends to the pipe of its stream. -/
theorem stream_write {bytes : Bytes} (hopen : (state.pipe target).isOpen = true)
    (hwritten : event.writtenTo stream = if target = stream then bytes else []) :
    StreamStep stream state
      (state.setPipe target
        { state.pipe target with buffer := (state.pipe target).buffer ++ bytes }) event := by
  by_cases hsame : target = stream
  · subst hsame
    exact .writes (text_set_pipe _) (by simp [hwritten]) hopen (by simp [hopen])
      (control_set_pipe _ _ _)
  · have hother : ¬ stream = target := fun h => hsame h.symm
    exact stream_rests (by simp [State.look, hother]) (by rw [control_set_pipe])
      (by simp [hwritten, hsame])

/-- An event that is no write puts nothing into a pipe. -/
theorem written_to_of_not_write (h : event.ofWrite = false) : event.writtenTo stream = [] := by
  cases event with
  | write | otherWrite => cases h
  | _ => rfl

/-- The steps that the parent takes no part in. -/
theorem stream_child_step (h : step ctx state event = some next) (hevent : event.ofChild = true) :
    StreamStep stream state next event := by
  cases child_move h hevent with
  | rests _ hwrite hnext =>
      subst hnext
      exact stream_rests (by cases stream <;> rfl) rfl (written_to_of_not_write hwrite)
  | ends _ hwrite _ hnext =>
      subst hnext
      exact stream_rests (by cases stream <;> rfl) rfl (written_to_of_not_write hwrite)
  | writes hwrite hopen hnext =>
      subst hnext
      refine stream_write hopen ?_
      rcases hwrite with rfl | rfl <;> rfl
  | setsEnds hnext hbuffer hopen _ hwrite =>
      subst hnext
      exact stream_set_ends hbuffer hopen (written_to_of_not_write hwrite)

/-- The parent leaves the `select` at the deadline. -/
theorem stream_times_out (hcontrol : state.control.pending = []) :
    StreamStep stream state
      ({ state.killGroup with result.timedOut := true }.drainThen state.openStreams true)
      .selectTimedOut := by
  refine .timesOut rfl ((text_drain_then _ _).trans (by cases stream <;> rfl)) ?_ ?_ ?_
  · rw [buffer_drain_then]
    cases stream <;> rfl
  · cases hopen : (state.pipe stream).isOpen with
    | false => exact is_open_drain_then _ _ (by cases stream <;> exact hopen)
    | true =>
        have hmem := mem_open_streams.mpr hopen
        cases hstreams : state.openStreams with
        | nil => simp [hstreams] at hmem
        | cons first rest => cases stream <;> exact hopen
  · rw [hcontrol]
    exact List.not_mem_nil

/-- A `read` that returns bytes. -/
theorem stream_reads (target : Stream) (count : Nat) :
    StreamStep stream state
      (((state.append target ((state.pipe target).buffer.take count)).setPipe target
        { state.pipe target with buffer := (state.pipe target).buffer.drop count }).call
          [.read ⟨target, false⟩])
      (.read count) := by
  have hnext : (((state.append target ((state.pipe target).buffer.take count)).setPipe target
      { state.pipe target with buffer := (state.pipe target).buffer.drop count }).call
        [.read ⟨target, false⟩]).control = state.control := by
    show (State.setPipe _ _ _).control = _
    rw [control_set_pipe, control_append]
  by_cases hsame : stream = target
  · subst hsame
    exact .reads count (by simp) (by simp) (by simp) rfl hnext
  · exact stream_rests (by simp [State.look, hsame]) (by rw [hnext]) rfl

/-- Out of `AppendFromFd` with the pipe empty. -/
theorem stream_drained {rest : List Stream} {leave : Bool}
    (hcontrol : state.control = .drain target rest leave)
    (htext : ∀ stream, middle.text stream = state.text stream)
    (hother : ∀ stream, stream ≠ target → middle.pipe stream = state.pipe stream)
    (hempty : (state.pipe target).buffer = []) (hbuffer : (middle.pipe target).buffer = [])
    (hopen : (state.pipe target).isOpen = false → (middle.pipe target).isOpen = false)
    (hwritten : event.writtenTo stream = []) :
    StreamStep stream state (middle.drainThen rest leave) event := by
  have hpending : state.control.pending = if leave then target :: rest else [] := by
    rw [hcontrol]
    cases leave <;> rfl
  by_cases hsame : stream = target
  · subst hsame
    refine .empties ((text_drain_then _ _).trans (htext stream)) hempty
      (by rw [buffer_drain_then, hbuffer]) (fun h => is_open_drain_then _ _ (hopen h)) hwritten ?_
    rw [pending_drain_then, hpending]
    cases leave with
    | false => exact id
    | true => exact List.mem_cons_of_mem stream
  · have hpipe := hother stream hsame
    cases leave with
    | false =>
        exact stream_rests (by simp [State.look, htext stream, hpipe])
          (by rw [pending_drain_then, hpending]; rfl) hwritten
    | true =>
        cases rest with
        | nil =>
            refine .shuts ((text_drain_then _ _).trans (htext stream)) (by simp [hpipe]) ?_ hwritten
              rfl ?_
            · cases stream <;> rfl
            · rw [hpending]
              simpa using hsame
        | cons first rest =>
            refine .rests ((text_drain_then _ _).trans (htext stream)) (by simp [hpipe]) ?_ hwritten
              ?_
            · rw [← hpipe]
              cases stream <;> rfl
            · rw [pending_drain_then, hpending]
              simp [hsame]

/-- The parent's steps, where `read` fails for no other reason than these. -/
theorem stream_parent_step (h : step ctx state event = some next) (hevent : event.ofChild = false)
    (hread : ∀ error, event = .readFailed error → error = .eintr ∨ error = .eagain) :
    StreamStep stream state next event := by
  cases parent_move h hevent with
  | makesStdout hcontrol | stdoutFails hcontrol | makesStderr hcontrol | stderrFails hcontrol
    | setsNonBlocking hcontrol | forks hcontrol | forkFails hcontrol | arms hcontrol
    | selects hcontrol | selectRetries hcontrol | waits hcontrol | waitFails hcontrol =>
      exact stream_rests (by cases stream <;> rfl) (by rw [hcontrol]; rfl) rfl
  -- Both pipes are closed already.
  | endsLoop hcontrol hopen =>
      exact stream_rests (by simp [State.look, closed_of_no_open hopen]) (by rw [hcontrol]; rfl) rfl
  | selectReady hcontrol =>
      exact stream_rests (by simp [State.look]) (by rw [pending_drain_then, hcontrol]; rfl) rfl
  | selectTimesOut hcontrol => exact stream_times_out (by rw [hcontrol]; rfl)
  | selectFails hcontrol =>
      exact .shuts (by cases stream <;> rfl) (by cases stream <;> rfl) (by cases stream <;> rfl)
        rfl rfl (by rw [hcontrol]; exact List.not_mem_nil)
  | reads => exact stream_reads _ _
  | readsEof hcontrol hempty =>
      refine stream_drained hcontrol (fun _ => ?_) (fun _ hother => ?_) hempty ?_ (fun _ => ?_) rfl
      · simp [State.closePipe]
      · simp [State.closePipe, hother]
      · simp [State.closePipe, hempty]
      · simp [State.closePipe]
  | readRetries => exact stream_rests (by simp [State.look]) rfl rfl
  | @readAgain target rest leave hcontrol hquiet =>
      have hempty : (state.pipe target).buffer = [] := by
        simp only [Pipe.readable, Bool.or_eq_false_iff, decide_eq_false_iff_not,
          not_not] at hquiet
        exact hquiet.1
      exact stream_drained hcontrol (fun _ => text_call _) (fun _ _ => pipe_call _) hempty
        (by simpa using hempty) (by simp) rfl
  | readFails _ herrno => exact absurd (hread _ rfl) herrno
  | waitRetries => exact stream_rests rfl rfl rfl

/-- Every step is one of those. -/
theorem stream_step (h : step ctx state event = some next)
    (hread : ∀ error, event = .readFailed error → error = .eintr ∨ error = .eagain) :
    StreamStep stream state next event := by
  cases hevent : event.ofChild with
  | true => exact stream_child_step h hevent
  | false => exact stream_parent_step h hevent hread

/-! ## What a step preserves -/

namespace StreamStep

/-- No byte is lost, repeated or moved: what was read and what is in the pipe grow together by what
is written. -/
theorem content (h : StreamStep stream state next event) :
    next.text stream ++ (next.pipe stream).buffer =
      state.text stream ++ (state.pipe stream).buffer ++ event.writtenTo stream := by
  cases h with
  | rests htext hbuffer _ hwritten => rw [htext, hbuffer, hwritten, List.append_nil]
  | writes htext hbuffer => rw [htext, hbuffer, List.append_assoc]
  | reads count htext hbuffer _ hwritten =>
      rw [htext, hbuffer, hwritten, List.append_nil, List.append_assoc, List.take_append_drop]
  | empties htext hstate hbuffer _ hwritten => simp [htext, hstate, hbuffer, hwritten]
  | timesOut hevent htext hbuffer => simp [hevent, htext, hbuffer, Event.writtenTo]
  | shuts htext hbuffer _ hwritten => rw [htext, hbuffer, hwritten, List.append_nil]

/-- What was read stays read. -/
theorem grows (h : StreamStep stream state next event) :
    state.text stream <+: next.text stream := by
  cases h with
  | reads count htext => exact ⟨_, htext.symm⟩
  | rests htext | writes htext | empties htext | timesOut _ htext | shuts htext =>
      rw [htext]

/-- A pipe that was closed at its end stays so. -/
theorem stays_empty (h : StreamStep stream state next event)
    (hclosed : (state.pipe stream).isOpen = false) (hempty : (state.pipe stream).buffer = []) :
    (next.pipe stream).isOpen = false ∧ (next.pipe stream).buffer = [] := by
  cases h with
  | rests _ hbuffer hopen => exact ⟨hopen.trans hclosed, hbuffer.trans hempty⟩
  | writes _ _ hstate => simp [hclosed] at hstate
  | reads count _ hbuffer hopen =>
      exact ⟨hopen.trans hclosed, by rw [hbuffer, hempty, List.drop_nil]⟩
  | empties _ _ hbuffer hopen => exact ⟨hopen hclosed, hbuffer⟩
  | timesOut _ _ hbuffer hopen => exact ⟨hopen.trans hclosed, hbuffer.trans hempty⟩
  | shuts _ hbuffer hopen => exact ⟨hopen, hbuffer.trans hempty⟩

/-- A stream that is to be read at the deadline is so until its pipe is empty. -/
theorem drained (h : StreamStep stream state next event) (hmem : stream ∈ state.control.pending) :
    stream ∈ next.control.pending ∨ (next.pipe stream).buffer = [] := by
  cases h with
  | rests _ _ _ _ hpending => exact .inl (hpending.mpr hmem)
  | writes _ _ _ _ hcontrol => exact .inl (by rwa [hcontrol])
  | reads _ _ _ _ _ hcontrol => exact .inl (by rwa [hcontrol])
  | empties _ _ hbuffer => exact .inr hbuffer
  | timesOut _ _ _ _ hpending => exact absurd hmem hpending
  | shuts _ _ _ _ _ hpending => exact absurd hmem hpending

/-- No stream is to be read at the deadline before the deadline. -/
theorem pending (h : StreamStep stream state next event) (hmem : stream ∈ next.control.pending) :
    stream ∈ state.control.pending ∨ event = .selectTimedOut := by
  cases h with
  | rests _ _ _ _ hpending => exact .inl (hpending.mp hmem)
  | writes _ _ _ _ hcontrol => exact .inl (by rwa [← hcontrol])
  | reads _ _ _ _ _ hcontrol => exact .inl (by rwa [← hcontrol])
  | empties _ _ _ _ _ hpending => exact .inl (hpending hmem)
  | timesOut hevent => exact .inr hevent
  | shuts _ _ _ _ hnext => simp [hnext, Control.pending] at hmem

/-- Until the loop is left, a pipe is closed when it is empty. -/
theorem closed (h : StreamStep stream state next event) (hnext : next.control ≠ .waiting)
    (hstate : (state.pipe stream).isOpen = false → (state.pipe stream).buffer = [])
    (hclosed : (next.pipe stream).isOpen = false) : (next.pipe stream).buffer = [] := by
  cases h with
  | rests _ hbuffer hopen => exact hbuffer.trans (hstate (hopen.symm.trans hclosed))
  | writes _ _ _ hopen => simp [hopen] at hclosed
  | reads _ _ hbuffer hopen =>
      rw [hbuffer, hstate (hopen.symm.trans hclosed), List.drop_nil]
  | empties _ _ hbuffer => exact hbuffer
  | timesOut _ _ hbuffer hopen => exact hbuffer.trans (hstate (hopen.symm.trans hclosed))
  | shuts _ _ _ _ hwaiting => exact absurd hwaiting hnext

end StreamStep

/-! ## The invariant -/

/-- `read` fails for no other reason than a signal or an empty pipe. -/
def ReadsRetry (events : List Event) : Prop :=
  ∀ error, .readFailed error ∈ events → error = .eintr ∨ error = .eagain

/-- What holds of the streams after some events. -/
structure Captured (history : List Event) (state : State) : Prop where
  content : ∀ stream, state.text stream ++ (state.pipe stream).buffer = written stream history
  pending : ∀ stream, stream ∈ state.control.pending → .selectTimedOut ∈ history
  /-- Until the loop is left, a pipe is closed at its end. -/
  closed : state.control.phase = .setUp ∨ state.control.phase = .loop →
    ∀ stream, (state.pipe stream).isOpen = false → (state.pipe stream).buffer = []
  /-- Unless something else ends the loop, both pipes are at their ends then. -/
  complete : state.control = .waiting ∨ state.control = .returned → state.result.error = [] →
    .selectTimedOut ∉ history →
    ∀ stream, (state.pipe stream).isOpen = false ∧ (state.pipe stream).buffer = []

theorem captured_initial (clock : Int) : Captured [] (initial clock) where
  content stream := by cases stream <;> rfl
  pending stream h := by simp [initial, Control.pending] at h
  closed _ stream h := by cases stream <;> cases h
  complete h := by simp [initial] at h

/-- A parent that leaves its loop is in `waitpid`, or has streams to read at the deadline. -/
theorem exists_pending (hphase : state.control.phase = .leaving) (h : state.control ≠ .waiting) :
    ∃ stream, stream ∈ state.control.pending := by
  cases hcontrol : state.control with
  | drain stream rest leave =>
      rw [hcontrol, phase_drain] at hphase
      cases leave with
      | true => exact ⟨stream, List.mem_cons_self⟩
      | false => simp at hphase
  | waiting => exact absurd hcontrol h
  | _ => simp [hcontrol, Control.phase] at hphase

/-- Nothing leads back into the loop or before it. -/
theorem phase_before (h : step ctx state event = some next)
    (hphase : next.control.phase = .setUp ∨ next.control.phase = .loop) :
    state.control.phase = .setUp ∨ state.control.phase = .loop := by
  cases hevent : event.ofChild with
  | true => rwa [(child_step h hevent).control] at hphase
  | false =>
      cases parent_step h hevent with
      | setsUp _ _ hstate => exact .inl hstate
      | setUpFails _ _ hstate => exact .inl hstate
      | forks hstate => exact .inl hstate
      | loops _ _ _ _ hstate => exact .inr hstate
      | ends hstate => exact .inr (by rw [hstate]; rfl)
      | selectFails _ hstate => exact .inr hstate
      | kills hstate => exact .inr hstate
      | leaves _ _ _ hnext => simp [hnext] at hphase
      | returns _ _ hnext => simp [hnext, Control.phase] at hphase
      | waitFails _ _ hnext => simp [hnext, Control.phase] at hphase

/-- Once both pipes are at their ends, the parent comes to `waitpid` and back. -/
theorem complete_before {history : List Event} (hstate : Captured history state)
    (h : step ctx state event = some next)
    (hcontrol : next.control = .waiting ∨ next.control = .returned)
    (herror : next.result.error = []) (htimed : .selectTimedOut ∉ history ++ [event])
    (stream : Stream) :
    (state.pipe stream).isOpen = false ∧ (state.pipe stream).buffer = [] := by
  have hbefore : .selectTimedOut ∉ history := fun hmem => htimed (List.mem_append_left _ hmem)
  have hne : event ≠ .selectTimedOut := fun heq => htimed (by simp [heq])
  cases hevent : event.ofChild with
  | true =>
      have hchild := child_step h hevent
      rw [hchild.control] at hcontrol
      rw [hchild.result] at herror
      exact hstate.complete hcontrol herror hbefore stream
  | false =>
      cases parent_step h hevent with
      | setsUp _ _ _ hnext =>
          rcases hcontrol with hcontrol | hcontrol <;> simp [hcontrol, Control.phase] at hnext
      | setUpFails _ _ _ _ _ hfailed => exact absurd herror hfailed
      | forks _ hnext => rcases hcontrol with hcontrol | hcontrol <;> simp [hcontrol] at hnext
      | loops _ _ _ _ _ hnext =>
          rcases hcontrol with hcontrol | hcontrol <;> simp [hcontrol, Control.phase] at hnext
      | ends hhead hopen =>
          have hclosed := @closed_of_no_open state stream hopen
          exact ⟨hclosed, hstate.closed (.inr (by rw [hhead]; rfl)) stream hclosed⟩
      | selectFails _ _ _ _ _ hfailed => exact absurd herror hfailed
      | kills => exact absurd rfl hne
      | leaves _ _ hphase _ hkeeps =>
          by_cases hwaiting : state.control = .waiting
          · exact hstate.complete (.inl hwaiting) (hkeeps.error.symm.trans herror) hbefore stream
          · obtain ⟨other, hother⟩ := exists_pending hphase hwaiting
            exact absurd (hstate.pending other hother) hbefore
      | returns hwaiting _ _ _ _ hsame =>
          exact hstate.complete (.inl hwaiting) (hsame.symm.trans herror) hbefore stream
      | waitFails _ _ _ _ hfailed => exact absurd herror hfailed

theorem captured_step {history : List Event} (hstate : Captured history state)
    (h : step ctx state event = some next)
    (hread : ∀ error, event = .readFailed error → error = .eintr ∨ error = .eagain) :
    Captured (history ++ [event]) next := by
  have hstep : ∀ stream, StreamStep stream state next event := fun _ => stream_step h hread
  refine ⟨fun stream => ?_, fun stream hmem => ?_, fun hphase stream => ?_, ?_⟩
  · rw [(hstep stream).content, hstate.content, written_append]
    simp [written]
  · rcases (hstep stream).pending hmem with hbefore | rfl
    · exact List.mem_append_left _ (hstate.pending stream hbefore)
    · exact List.mem_append_right _ List.mem_cons_self
  · refine (hstep stream).closed ?_ (hstate.closed (phase_before h hphase) stream)
    rintro hwaiting
    simp [hwaiting, Control.phase] at hphase
  · intro hcontrol herror htimed stream
    obtain ⟨hclosed, hempty⟩ := complete_before hstate h hcontrol herror htimed stream
    exact (hstep stream).stays_empty hclosed hempty

theorem captured_run {clock : Int} {events : List Event} {final : State}
    (hrun : runFrom ctx clock events = some final) (hreads : ReadsRetry events) :
    Captured events final := by
  refine @Transition.run_history State Event (step ctx)
    (fun history state => ReadsRetry history → Captured history state) ?_ _ _ _
    (fun _ => captured_initial clock) hrun hreads
  intro history state event next hstate hstep hreads
  refine captured_step (hstate fun error hmem => ?_) hstep fun error hevent => ?_
  · exact hreads error (List.mem_append_left _ hmem)
  · exact hreads error (by simp [hevent])

/-! ## At the deadline -/

/-- Some bytes of a stream have been read, or are among those that are still to be read. -/
def Secured (bytes : Bytes) (stream : Stream) (state : State) : Prop :=
  bytes <+: state.text stream ∨
    (stream ∈ state.control.pending ∧ bytes <+: state.text stream ++ (state.pipe stream).buffer)

theorem secured_step {bytes : Bytes} (hstate : Secured bytes stream state)
    (h : StreamStep stream state next event) : Secured bytes stream next := by
  rcases hstate with hread | ⟨hpending, hbytes⟩
  · exact .inl (hread.trans h.grows)
  · have hnext : bytes <+: next.text stream ++ (next.pipe stream).buffer := by
      rw [h.content]
      exact hbytes.trans (List.prefix_append _ _)
    rcases h.drained hpending with hstill | hempty
    · exact .inr ⟨hstill, hnext⟩
    · rw [hempty, List.append_nil] at hnext
      exact .inl hnext

/-- The deadline branch reads every pipe that is open. -/
theorem pending_of_open (h : step ctx state .selectTimedOut = some next)
    (hopen : (state.pipe stream).isOpen = true) : stream ∈ next.control.pending := by
  cases parent_move h rfl with
  | selectTimesOut =>
      rw [pending_drain_then, if_pos rfl]
      exact mem_open_streams.mpr hopen

/-- A stream that is to be read, or at its end. -/
def Settled (stream : Stream) (state : State) : Prop :=
  stream ∈ state.control.pending ∨
    ((state.pipe stream).isOpen = false ∧ (state.pipe stream).buffer = [])

/-- From the deadline until the parent reads, every stream is settled. -/
theorem settled_between {between : List Event} {history : List Event}
    (hstate : Captured history state) (h : step ctx state .selectTimedOut = some middle)
    (hbetween : ∀ e ∈ between, e.ofChild = true)
    (hrun : Transition.run (step ctx) middle between = some next) : Settled stream next := by
  refine @Transition.run_invariant_on State Event (step ctx) (Settled stream)
    (fun event => event.ofChild = true) ?_ _ _ _ hbetween ?_ hrun
  · intro state event next hchild hsettled hstep
    rcases hsettled with hpending | ⟨hclosed, hempty⟩
    · exact .inl (by rwa [(child_step hstep hchild).control])
    · exact .inr ((stream_child_step hstep hchild).stays_empty hclosed hempty)
  · cases hopen : (state.pipe stream).isOpen with
    | true => exact .inl (pending_of_open h hopen)
    | false =>
        refine .inr ((stream_parent_step h rfl (by simp)).stays_empty hopen ?_)
        cases parent_step h rfl with
        | kills hphase => exact hstate.closed (.inr hphase) stream hopen
        | setsUp _ htimed | setUpFails _ htimed | loops _ htimed | leaves _ htimed =>
            exact absurd rfl htimed

/-- What was written before the parent reads its last is in the texts. -/
theorem written_before_deadline {clock : Int} {before between after : List Event} {final : State}
    (hrun : runFrom ctx clock (before ++ .selectTimedOut :: (between ++ after)) = some final)
    (hreads : ReadsRetry (before ++ .selectTimedOut :: (between ++ after)))
    (hbetween : ∀ e ∈ between, e.ofChild = true) (hfinal : final.control = .returned) :
    written stream (before ++ between) <+: final.text stream := by
  rw [runFrom, Transition.run_append, Option.bind_eq_some_iff] at hrun
  obtain ⟨state, hbefore, hrun⟩ := hrun
  obtain ⟨middle, htimed, hrun⟩ := Transition.run_cons_eq_some_iff.mp hrun
  rw [Transition.run_append, Option.bind_eq_some_iff] at hrun
  obtain ⟨next, hmiddle, hafter⟩ := hrun
  have hnext : runFrom ctx clock (before ++ .selectTimedOut :: between) = some next := by
    rw [runFrom, Transition.run_append, hbefore]
    exact Transition.run_cons_eq_some_iff.mpr ⟨middle, htimed, hmiddle⟩
  have hcaptured : Captured (before ++ .selectTimedOut :: between) next := by
    refine captured_run hnext fun error hmem => hreads error ?_
    rw [← List.cons_append, ← List.append_assoc]
    exact List.mem_append_left _ hmem
  have hstate : Captured before state :=
    captured_run hbefore fun error hmem => hreads error (List.mem_append_left _ hmem)
  have hwritten : written stream (before ++ .selectTimedOut :: between) =
      written stream (before ++ between) := by
    rw [written_append, written_append]
    rfl
  have hcontent := hcaptured.content stream
  rw [hwritten] at hcontent
  have hsecured : Secured (written stream (before ++ between)) stream next := by
    rcases settled_between hstate htimed hbetween hmiddle with hpending | ⟨_, hempty⟩
    · exact .inr ⟨hpending, by rw [hcontent]⟩
    · rw [hempty, List.append_nil] at hcontent
      exact .inl (by rw [hcontent])
  have hlast : Secured (written stream (before ++ between)) stream final := by
    refine @Transition.run_invariant_on State Event (step ctx)
      (Secured (written stream (before ++ between)) stream)
      (fun event => ∀ error, event = .readFailed error → error = .eintr ∨ error = .eagain)
      (fun hread hsecured hstep => secured_step hsecured (stream_step hstep hread)) _ _ _
      (fun event hmem error hevent => hreads error ?_) hsecured hafter
    rw [← hevent]
    exact List.mem_append_right _ (List.mem_cons_of_mem _ (List.mem_append_right _ hmem))
  rcases hlast with hread | ⟨hpending, _⟩
  · exact hread
  · simp [hfinal, Control.pending] at hpending

/-! ## The texts of a result -/

/-- The texts hold what was written: all of it when the run ends by itself, and at a timeout a part
from the beginning, with everything from before the deadline branch started to read. -/
structure Captures (events : List Event) (result : ProcessResult) : Prop where
  whole : result.error = [] → result.timedOut = false →
    ∀ stream, result.text stream = written stream events
  entered : result.timedOut = true → .selectTimedOut ∈ events
  start : result.timedOut = true → ∀ stream, result.text stream <+: written stream events
  deadline : ∀ before between after,
    events = before ++ .selectTimedOut :: (between ++ after) →
    (∀ e ∈ between, e.ofChild = true) →
    ∀ stream, written stream (before ++ between) <+: result.text stream

/-- Output capture neither loses nor repeats nor reorders bytes. -/
theorem returned_captures {clock : Int} {events : List Event} {result : ProcessResult}
    (h : Returns ctx clock events result) (hreads : ReadsRetry events) :
    Captures events result := by
  have htimed := returned_timed_out_iff h
  obtain ⟨final, hrun, hreturned, rfl⟩ := h
  have hcaptured := captured_run hrun hreads
  refine ⟨fun herror hnot stream => ?_, htimed.mp, fun _ stream => ?_, ?_⟩
  · have hmem : .selectTimedOut ∉ events := by
      rw [← htimed, hnot]
      simp
    obtain ⟨_, hempty⟩ := hcaptured.complete (.inr hreturned) herror hmem stream
    rw [← hcaptured.content stream, hempty, List.append_nil]
    rfl
  · rw [← hcaptured.content stream]
    exact List.prefix_append _ _
  · rintro before between after rfl hbetween stream
    exact written_before_deadline hrun hreads hbetween hreturned

/-- A program that prints on both streams while the parent reads, and exits. -/
def printsAndExits : List Event :=
  started ++
    [.write .stdout (lit "one"), .proceed, .selectReady, .read 2, .write .stderr (lit "two"),
      .write .stdout (lit "!"), .readFailed .eintr, .read 2, .readFailed .eagain, .proceed,
      .selectReady, .read 3, .readFailed .eagain, .exit 0, .proceed, .selectReady, .readEof,
      .readEof, .proceed, .waited]

/-- Every byte is captured. -/
theorem returned_captures_both :
    Returns hangingProgram 0 printsAndExits
        { exitCode := 0, stdoutText := lit "one!", stderrText := lit "two" } ∧
      Captures printsAndExits
        { exitCode := 0, stdoutText := lit "one!", stderrText := lit "two" } := by
  have hreturns : Returns hangingProgram 0 printsAndExits
      { exitCode := 0, stdoutText := lit "one!", stderrText := lit "two" } :=
    ⟨_, rfl, by decide, by decide⟩
  refine ⟨hreturns, returned_captures hreturns fun error hmem => ?_⟩
  simpa [printsAndExits, started] using hmem

end Process

end RuntimeAnalyzer
