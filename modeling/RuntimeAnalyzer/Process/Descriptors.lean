import RuntimeAnalyzer.Lib.Ownership
import RuntimeAnalyzer.Process.Capture

/-!
# The descriptors of the pipes

Who closes which end of which pipe. `State.owned` is what the parent has yet to close where it
stands; `DescriptorStep` is what a step does with those descriptors, and `Balanced` the invariant
of a run: the calls made so far account for every descriptor that `pipe` gave and that the parent
does not own any more. `descriptors_closed_once` reads from it that nothing leaks and that nothing
is touched after it was closed.
-/

namespace RuntimeAnalyzer

namespace Process

open Ownership

variable {ctx : Context} {state next : State} {event : Event} {stream : Stream}

/-! ## What the parent has and what it owns -/

namespace FdCall

/-- The descriptor of a call. -/
def fd : FdCall → Fd
  | fcntl fd | select fd | read fd | close fd => fd

def closes : FdCall → Bool
  | close _ => true
  | _ => false

theorem eq_close {call : FdCall} (h : call.closes = true) : call = .close call.fd := by
  cases call with
  | close fd => rfl
  | _ => cases h

end FdCall

/-- The number of pipes that were made. -/
def pipesMade (events : List Event) : Nat :=
  events.count (.pipe none)

/-- Both ends of a pipe. -/
def ends (stream : Stream) : Set Fd :=
  {fd | fd.stream = stream}

/-- What `pipe` gave the parent, for stdout first. -/
def obtained (events : List Event) : Set Fd :=
  {fd | fd.stream ∈ [Stream.stdout, .stderr].take (pipesMade events)}

namespace State

/-- The read ends of the pipes that are open by `stdout_open` and `stderr_open`. -/
def openEnds (state : State) : Set Fd :=
  {fd | fd.writeEnd = false ∧ (state.pipe fd.stream).isOpen = true}

/-- The descriptors that the code has yet to close. -/
def owned (state : State) : Set Fd :=
  match state.control with
  | .stdoutPipe | .waiting | .returned => ∅
  | .stderrPipe => ends .stdout
  | .setNonBlocking | .fork | .arm => Set.univ
  | .head | .select _ _ | .drain _ _ _ => state.openEnds

end State

/-- The pipes are open while nothing was read, and those to be read are, each once. -/
structure PipesOpen (state : State) : Prop where
  start : state.control.phase = .setUp ∨ state.control = .arm →
    ∀ stream, (state.pipe stream).isOpen = true
  reading : ∀ stream rest leave, state.control = .drain stream rest leave →
    (stream :: rest).Nodup ∧ ∀ target ∈ stream :: rest, (state.pipe target).isOpen = true

theorem pipes_made_concat (events : List Event) (event : Event) :
    pipesMade (events ++ [event]) = pipesMade events + if event = .pipe none then 1 else 0 := by
  rw [pipesMade, List.count_append, List.count_singleton, pipesMade]
  simp

/-- Another event obtains nothing. -/
theorem obtained_other (events : List Event) (h : event ≠ .pipe none) :
    obtained (events ++ [event]) = obtained events := by
  rw [obtained, pipes_made_concat, if_neg h, Nat.add_zero, obtained]

theorem obtained_first {events : List Event} (h : pipesMade events = 0) :
    obtained (events ++ [.pipe none]) = obtained events ∪ ends .stdout := by
  ext ⟨stream, writeEnd⟩
  simp [obtained, ends, pipes_made_concat, h]

theorem obtained_second {events : List Event} (h : pipesMade events = 1) :
    obtained (events ++ [.pipe none]) = obtained events ∪ ends .stderr := by
  ext ⟨stream, writeEnd⟩
  simp [obtained, ends, pipes_made_concat, h]

/-! ## Parts of a step -/

theorem open_ends_congr
    (hopen : ∀ stream, (next.pipe stream).isOpen = (state.pipe stream).isOpen) :
    next.openEnds = state.openEnds := by
  ext fd
  show fd.writeEnd = false ∧ _ ↔ fd.writeEnd = false ∧ _
  rw [hopen]

theorem owned_congr (hcontrol : next.control = state.control)
    (hopen : ∀ stream, (next.pipe stream).isOpen = (state.pipe stream).isOpen) :
    next.owned = state.owned := by
  rw [State.owned, State.owned, hcontrol, open_ends_congr hopen]

theorem PipesOpen.congr (h : PipesOpen state) (hcontrol : next.control = state.control)
    (hopen : ∀ stream, (next.pipe stream).isOpen = (state.pipe stream).isOpen) :
    PipesOpen next where
  start hphase stream := by
    rw [hopen]
    exact h.start (by rwa [hcontrol] at hphase) stream
  reading stream rest leave hdrain := by
    obtain ⟨hnodup, hstreams⟩ := h.reading stream rest leave (hcontrol ▸ hdrain)
    exact ⟨hnodup, fun target hmem => (hopen target).trans (hstreams target hmem)⟩

/-- Whatever was obtained, the account is kept. -/
def Spends (state next : State) : Prop :=
  ∀ obtained, Accounted FdCall.fd FdCall.closes obtained state.owned state.calls →
    Accounted FdCall.fd FdCall.closes obtained next.owned next.calls

theorem Spends.trans {middle : State} (h : Spends state middle) (h' : Spends middle next) :
    Spends state next :=
  fun obtained hstate => h' obtained (h obtained hstate)

theorem spends_rests (hcalls : next.calls = state.calls) (howned : next.owned = state.owned) :
    Spends state next := by
  intro obtained hstate
  rwa [hcalls, howned]

/-- Calls on descriptors that stay open. -/
theorem spends_use {uses : List FdCall} (hcalls : next.calls = state.calls ++ uses)
    (huses : ∀ call ∈ uses, call.fd ∈ state.owned ∧ call.closes = false)
    (howned : next.owned = state.owned) : Spends state next := by
  intro obtained hstate
  rw [hcalls, howned]
  exact hstate.use huses

/-- Descriptors are closed and not owned any more. -/
theorem spends_close (fds : List Fd) (hcalls : next.calls = state.calls ++ fds.map .close)
    (hnodup : fds.Nodup) (hfds : ∀ fd ∈ fds, fd ∈ state.owned)
    (howned : ∀ fd, fd ∈ next.owned ↔ fd ∈ state.owned ∧ fd ∉ fds) : Spends state next := by
  intro obtained hstate
  have hmap : (fds.map FdCall.close).map FdCall.fd = fds := by
    rw [List.map_map]
    exact List.map_id fds
  have hrest : next.owned = state.owned \ {fd | fd ∈ (fds.map FdCall.close).map FdCall.fd} := by
    rw [hmap]
    exact Set.ext howned
  rw [hcalls, hrest]
  refine hstate.release (by rwa [hmap]) fun call hmem => ?_
  obtain ⟨fd, hfd, rfl⟩ := List.mem_map.mp hmem
  exact ⟨hfds fd hfd, rfl⟩

/-- What a step of the parent that obtains nothing does with its descriptors. -/
structure DescriptorStep (state next : State) : Prop where
  spends : Spends state next
  pipes : PipesOpen next
  /-- It makes no pipe next. -/
  made : next.control ≠ .stdoutPipe ∧ next.control ≠ .stderrPipe

theorem DescriptorStep.after {middle : State} (h : DescriptorStep middle next)
    (hfirst : Spends state middle) : DescriptorStep state next :=
  ⟨hfirst.trans h.spends, h.pipes, h.made⟩

namespace Control

/-- Both pipes are made and nothing was read. -/
def ready : Control → Bool
  | setNonBlocking | fork | arm => true
  | _ => false

/-- Between two reads, or after the last. -/
def quiet : Control → Bool
  | head | select _ _ | waiting | returned => true
  | _ => false

end Control

/-- Where nothing is read yet, the pipes are open that were before. -/
theorem pipes_open_before (hopen : ∀ stream, (state.pipe stream).isOpen = true)
    (hsame : ∀ stream, (next.pipe stream).isOpen = (state.pipe stream).isOpen)
    (hphase : next.control.phase = .setUp ∨ next.control = .arm) : PipesOpen next where
  start _ stream := (hsame stream).trans (hopen stream)
  reading stream rest leave h := by
    rw [h, phase_drain] at hphase
    cases leave <;> simp at hphase

/-- A step to where both pipes are made, with both of them open. -/
theorem descriptors_ready (hspends : Spends state next)
    (hopen : ∀ stream, (state.pipe stream).isOpen = true)
    (hsame : ∀ stream, (next.pipe stream).isOpen = (state.pipe stream).isOpen)
    (hready : next.control.ready = true) : DescriptorStep state next := by
  refine ⟨hspends, pipes_open_before hopen hsame ?_, ?_⟩
  · cases h : next.control <;> simp [h, Control.ready, Control.phase] at hready ⊢
  · constructor <;> intro h <;> simp [h, Control.ready] at hready

/-- A step to where nothing is read. -/
theorem descriptors_quiet (hspends : Spends state next) (hquiet : next.control.quiet = true) :
    DescriptorStep state next := by
  refine ⟨hspends, ⟨fun h stream => ?_, fun stream rest leave h => ?_⟩, ?_⟩
  · cases hcontrol : next.control <;>
      simp [hcontrol, Control.quiet, Control.phase] at hquiet h
  · simp [h, Control.quiet] at hquiet
  · constructor <;> intro h <;> simp [h, Control.quiet] at hquiet

/-! ## Closing and reading -/

@[simp] theorem calls_set_pipe (pipe : Pipe) : (state.setPipe stream pipe).calls = state.calls := by
  cases stream <;> rfl

@[simp] theorem calls_append (bytes : Bytes) : (state.append stream bytes).calls = state.calls := by
  cases stream <;> rfl

theorem open_streams_nodup (state : State) : state.openStreams.Nodup :=
  List.Nodup.filter _ (by decide)

/-- A descriptor is the read end of an open stream. -/
theorem mem_open_ends {fd : Fd} :
    fd ∈ state.openEnds ↔ fd ∈ state.openStreams.map (⟨·, false⟩) := by
  obtain ⟨stream, writeEnd⟩ := fd
  show writeEnd = false ∧ _ ↔ _
  simp only [List.mem_map, mem_open_streams, Fd.mk.injEq]
  constructor
  · rintro ⟨rfl, hopen⟩
    exact ⟨stream, hopen, rfl, rfl⟩
  · rintro ⟨target, hopen, rfl, rfl⟩
    exact ⟨rfl, hopen⟩

/-- Out of the loop, with every open pipe closed. -/
theorem descriptors_leave_loop (howned : state.owned = state.openEnds) :
    DescriptorStep state state.leaveLoop := by
  refine descriptors_quiet ?_ rfl
  refine spends_close (state.openStreams.map (⟨·, false⟩)) ?_ ?_ (fun fd hmem => ?_) fun fd => ?_
  · rw [List.map_map]
    rfl
  · exact (open_streams_nodup state).map fun first second heq => congrArg Fd.stream heq
  · rw [howned]
    exact mem_open_ends.mpr hmem
  · rw [howned, mem_open_ends, and_not_self_iff]
    exact Iff.rfl

/-- On to the given streams, which are open. -/
theorem descriptors_drain_then {streams : List Stream} {leave : Bool}
    (howned : state.owned = state.openEnds) (hnodup : streams.Nodup)
    (hopen : ∀ stream ∈ streams, (state.pipe stream).isOpen = true) :
    DescriptorStep state (state.drainThen streams leave) := by
  cases streams with
  | cons stream rest =>
      refine ⟨?_, ⟨fun h => ?_, fun target others last h => ?_⟩, ?_⟩
      · refine spends_rests rfl ?_
        rw [howned]
        exact open_ends_congr fun stream => by cases stream <;> rfl
      · rcases h with h | h
        · cases leave <;> cases h
        · cases h
      · cases h
        exact ⟨hnodup, fun target hmem => (by cases target <;> exact hopen _ hmem)⟩
      · simp [State.drainThen]
  | nil =>
      cases leave with
      | true => exact descriptors_leave_loop howned
      | false =>
          refine descriptors_quiet ?_ rfl
          refine spends_rests rfl ?_
          rw [howned]
          exact open_ends_congr fun stream => by cases stream <;> rfl

section Reading

variable {rest : List Stream} {leave : Bool} (hcontrol : state.control = .drain stream rest leave)

include hcontrol

theorem owned_drain : state.owned = state.openEnds := by
  rw [State.owned, hcontrol]

/-- A `read` of the stream in turn. -/
theorem spends_read (hstate : PipesOpen state)
    (hcalls : next.calls = state.calls ++ [.read ⟨stream, false⟩])
    (hnext : next.control = state.control)
    (hopen : ∀ stream, (next.pipe stream).isOpen = (state.pipe stream).isOpen) :
    Spends state next := by
  refine spends_use hcalls (fun call hmem => ?_) (owned_congr hnext hopen)
  rw [List.mem_singleton.mp hmem, owned_drain hcontrol]
  exact ⟨⟨rfl, (hstate.reading _ _ _ hcontrol).2 stream List.mem_cons_self⟩, rfl⟩

/-- `close(fd); open = false` -/
theorem spends_close_pipe (hopen : (state.pipe stream).isOpen = true) :
    Spends state (state.closePipe stream) := by
  have hnext : (state.closePipe stream).control = .drain stream rest leave := by
    rw [← hcontrol]
    exact control_set_pipe _ _ _
  refine spends_close [⟨stream, false⟩] ?_ (List.nodup_singleton _) (fun fd hmem => ?_) fun fd => ?_
  · rw [State.closePipe]
    simp [State.call]
  · rw [List.mem_singleton.mp hmem, owned_drain hcontrol]
    exact ⟨rfl, hopen⟩
  · obtain ⟨target, writeEnd⟩ := fd
    rw [owned_drain hnext, owned_drain hcontrol, List.mem_singleton]
    show writeEnd = false ∧ _ ↔ (writeEnd = false ∧ _) ∧ _
    by_cases hsame : target = stream
    · subst hsame
      simp +contextual [State.closePipe]
    · simp [State.closePipe, hsame]

/-- After the `read` that finds a pipe at its end, or fails. -/
theorem descriptors_shut (hstate : PipesOpen state) :
    DescriptorStep state
      (((state.call [.read ⟨stream, false⟩]).closePipe stream).drainThen rest leave) := by
  obtain ⟨hnodup, hopen⟩ := hstate.reading _ _ _ hcontrol
  obtain ⟨hnot, hrest⟩ := List.nodup_cons.mp hnodup
  have hread : Spends state (state.call [.read ⟨stream, false⟩]) :=
    spends_read hcontrol hstate rfl rfl fun _ => by rw [pipe_call]
  have hclose := @spends_close_pipe (state.call [.read ⟨stream, false⟩]) stream rest leave hcontrol
    (by rw [pipe_call]; exact hopen stream List.mem_cons_self)
  refine (descriptors_drain_then ?_ hrest fun target hmem => ?_).after (hread.trans hclose)
  · refine @owned_drain _ stream rest leave ?_
    rw [← hcontrol]
    exact control_set_pipe _ _ _
  · have hother : target ≠ stream := fun heq => hnot (heq ▸ hmem)
    simp [State.closePipe, hother, hopen target (List.mem_cons_of_mem _ hmem)]

/-- After a `read` that leaves the parent where it is. -/
theorem descriptors_again (hstate : PipesOpen state)
    (hcalls : next.calls = state.calls ++ [.read ⟨stream, false⟩])
    (hnext : next.control = state.control)
    (hopen : ∀ stream, (next.pipe stream).isOpen = (state.pipe stream).isOpen) :
    DescriptorStep state next := by
  refine ⟨spends_read hcontrol hstate hcalls hnext hopen, hstate.congr hnext hopen, ?_⟩
  rw [hnext, hcontrol]
  simp

end Reading

/-! ## The parent's steps -/

/-- Without a child, everything that is owned is closed. -/
theorem descriptors_give_up {call text : Bytes} (fds : List Fd) (hnodup : fds.Nodup)
    (howned : ∀ fd, fd ∈ state.owned ↔ fd ∈ fds) :
    DescriptorStep state ((state.fail call text).call (fds.map .close)) := by
  refine descriptors_quiet ?_ rfl
  refine spends_close fds rfl hnodup (fun fd => (howned fd).mpr) fun fd => ?_
  rw [howned, and_not_self_iff]
  exact Iff.rfl

/-- The write ends are closed in the parent once the child has them. -/
theorem descriptors_arm {deadline : Option Int} (hstate : PipesOpen state)
    (hcontrol : state.control = .arm) :
    DescriptorStep state
      { state.call [.close ⟨.stdout, true⟩, .close ⟨.stderr, true⟩] with
        control := .head
        deadline } := by
  have hopen := hstate.start (.inr hcontrol)
  have howned : state.owned = Set.univ := by rw [State.owned, hcontrol]
  refine descriptors_quiet ?_ rfl
  refine spends_close [⟨.stdout, true⟩, ⟨.stderr, true⟩] rfl (by decide) (fun fd _ => ?_)
    fun fd => ?_
  · rw [howned]
    exact Set.mem_univ fd
  · obtain ⟨stream, writeEnd⟩ := fd
    have hstdout : state.stdoutPipe.isOpen = true := hopen .stdout
    have hstderr : state.stderrPipe.isOpen = true := hopen .stderr
    rw [State.owned, howned]
    cases stream <;> cases writeEnd <;>
      simp [State.call, State.openEnds, State.pipe, hstdout, hstderr]

/-- Every step that the parent takes part in, but for the pipes that are made. -/
theorem descriptor_step (h : step ctx state event = some next) (hparent : event.ofChild = false)
    (hpipe : event ≠ .pipe none) (hstate : PipesOpen state) : DescriptorStep state next := by
  cases parent_move h hparent with
  | makesStdout | makesStderr => exact absurd rfl hpipe
  | stdoutFails hcontrol =>
      refine descriptors_quiet (spends_rests rfl ?_) rfl
      rw [State.owned, State.owned, hcontrol]
      rfl
  | stderrFails hcontrol =>
      refine descriptors_give_up [⟨.stdout, false⟩, ⟨.stdout, true⟩] (by decide) fun fd => ?_
      obtain ⟨stream, writeEnd⟩ := fd
      rw [State.owned, hcontrol]
      cases stream <;> cases writeEnd <;> simp [ends]
  | setsNonBlocking hcontrol =>
      have hopen := hstate.start (.inl (by rw [hcontrol]; rfl))
      refine descriptors_ready ?_ hopen (fun stream => by cases stream <;> rfl) rfl
      refine spends_use rfl (fun call hmem => ⟨?_, ?_⟩) ?_
      · rw [State.owned, hcontrol]
        exact Set.mem_univ _
      · simp only [List.mem_cons, List.not_mem_nil, or_false] at hmem
        rcases hmem with rfl | rfl | rfl | rfl <;> rfl
      · rw [State.owned, State.owned, hcontrol]
  | forks hcontrol =>
      have hopen := hstate.start (.inl (by rw [hcontrol]; rfl))
      refine descriptors_ready (spends_rests rfl ?_) hopen (fun stream => ?_) rfl
      · rw [State.owned, State.owned, hcontrol]
      · cases stream <;> rfl
  | forkFails hcontrol =>
      refine descriptors_give_up
        [⟨.stdout, false⟩, ⟨.stdout, true⟩, ⟨.stderr, false⟩, ⟨.stderr, true⟩] (by decide)
        fun fd => ?_
      obtain ⟨stream, writeEnd⟩ := fd
      rw [State.owned, hcontrol]
      cases stream <;> cases writeEnd <;> simp
  | arms hcontrol => exact descriptors_arm hstate hcontrol
  | endsLoop hcontrol => exact descriptors_leave_loop (by rw [State.owned, hcontrol])
  | selects hcontrol =>
      have howned : state.owned = state.openEnds := by rw [State.owned, hcontrol]
      refine descriptors_quiet (spends_use rfl (fun call hmem => ?_) ?_) rfl
      · obtain ⟨target, htarget, rfl⟩ := List.mem_map.mp hmem
        rw [howned]
        exact ⟨⟨rfl, mem_open_streams.mp htarget⟩, rfl⟩
      · rw [howned]
        exact open_ends_congr fun stream => by cases stream <;> rfl
  | selectReady hcontrol =>
      refine descriptors_drain_then (by rw [State.owned, hcontrol])
        ((open_streams_nodup state).filter _) fun target hmem => ?_
      exact mem_open_streams.mp (List.mem_of_mem_filter hmem)
  | selectTimesOut hcontrol =>
      have howned : state.owned = state.openEnds := by rw [State.owned, hcontrol]
      refine (descriptors_drain_then ?_ (open_streams_nodup state) fun target hmem => ?_).after
        fun _ haccount => haccount
      · exact howned
      · have hopen := mem_open_streams.mp hmem
        cases target <;> exact hopen
  | selectRetries hcontrol =>
      have howned : state.owned = state.openEnds := by rw [State.owned, hcontrol]
      refine descriptors_quiet (spends_rests rfl ?_) rfl
      rw [howned]
      exact open_ends_congr fun stream => by cases stream <;> rfl
  | selectFails hcontrol =>
      have howned : state.owned = state.openEnds := by rw [State.owned, hcontrol]
      refine (descriptors_leave_loop ?_).after fun _ haccount => haccount
      exact howned
  | @reads count target rest leave hcontrol =>
      refine descriptors_again hcontrol hstate ?_ ?_ fun stream => ?_
      · simp [State.call]
      · show (State.setPipe _ _ _).control = _
        rw [control_set_pipe, control_append]
      · by_cases hsame : stream = target <;> simp [hsame]
  | readsEof hcontrol => exact descriptors_shut hcontrol hstate
  | readRetries hcontrol =>
      exact descriptors_again hcontrol hstate rfl rfl fun _ => by rw [pipe_call]
  | @readAgain target rest leave hcontrol =>
      obtain ⟨hnodup, hopen⟩ := hstate.reading _ _ _ hcontrol
      have hread : Spends state (state.call [.read ⟨target, false⟩]) :=
        spends_read hcontrol hstate rfl rfl fun _ => by rw [pipe_call]
      refine (descriptors_drain_then (@owned_drain (state.call _) _ _ _ hcontrol)
        hnodup.of_cons fun other hmem => ?_).after hread
      rw [pipe_call]
      exact hopen other (List.mem_cons_of_mem _ hmem)
  | readFails hcontrol => exact descriptors_shut hcontrol hstate
  | waits hcontrol =>
      refine descriptors_quiet (spends_rests rfl ?_) rfl
      rw [State.owned, State.owned, hcontrol]
  -- A signal: the same `waitpid` again.
  | waitRetries hcontrol =>
      exact ⟨fun _ haccount => haccount, hstate, by simp [hcontrol]⟩
  | waitFails hcontrol =>
      refine descriptors_quiet (spends_rests rfl ?_) rfl
      rw [State.owned, State.owned, hcontrol]
      rfl

/-- An operation on a pipe that leaves the parent's end as it is. -/
theorem set_pipe_leaves {target : Stream} {pipe : Pipe}
    (hopen : pipe.isOpen = (state.pipe target).isOpen) :
    (state.setPipe target pipe).calls = state.calls ∧
      ∀ stream, ((state.setPipe target pipe).pipe stream).isOpen = (state.pipe stream).isOpen := by
  refine ⟨calls_set_pipe pipe, fun stream => ?_⟩
  by_cases hsame : stream = target <;> simp [hsame, hopen]

/-- A step that the parent takes no part in makes none of its calls and closes none of its ends. -/
theorem child_leaves (h : step ctx state event = some next) (hevent : event.ofChild = true) :
    next.calls = state.calls ∧
      ∀ stream, (next.pipe stream).isOpen = (state.pipe stream).isOpen := by
  cases child_move h hevent with
  | rests _ _ hnext =>
      subst hnext
      exact ⟨rfl, fun stream => by cases stream <;> rfl⟩
  | ends _ _ _ hnext =>
      subst hnext
      exact ⟨rfl, fun stream => by cases stream <;> rfl⟩
  | writes _ _ hnext =>
      subst hnext
      exact set_pipe_leaves rfl
  | setsEnds hnext _ hopen =>
      subst hnext
      exact set_pipe_leaves hopen

/-! ## The invariant -/

/-- What holds of the descriptors after some events. -/
structure Balanced (history : List Event) (state : State) : Prop where
  accounted : Accounted FdCall.fd FdCall.closes (obtained history) state.owned state.calls
  pipes : PipesOpen state
  first : state.control = .stdoutPipe → pipesMade history = 0
  second : state.control = .stderrPipe → pipesMade history = 1

theorem balanced_initial (clock : Int) : Balanced [] (initial clock) where
  accounted := by
    have hnone : obtained [] = ∅ := by
      ext fd
      simp [obtained, pipesMade]
    rw [hnone]
    exact .nil
  pipes := @pipes_open_before (initial clock) _ (fun stream => by cases stream <;> rfl)
    (fun _ => rfl) (.inl rfl)
  first _ := rfl
  second h := by cases h

/-- A pipe is made: both its ends are new. -/
theorem balanced_pipe {history : List Event} (hstate : Balanced history state)
    (h : step ctx state (.pipe none) = some next) : Balanced (history ++ [.pipe none]) next := by
  cases parent_move h rfl with
  | makesStdout hcontrol =>
      have hcount := hstate.first hcontrol
      have hopen := hstate.pipes.start (.inl (by rw [hcontrol]; rfl))
      have hfresh : ∀ fd ∈ ends .stdout, fd ∉ obtained history := fun fd _ hfd => by
        simp [obtained, hcount] at hfd
      have haccount := hstate.accounted.obtain_fresh hfresh
      refine ⟨?_, pipes_open_before hopen (fun stream => ?_) (.inl rfl), by simp, fun _ => ?_⟩
      · rw [obtained_first hcount]
        rwa [State.owned, hcontrol, Set.empty_union] at haccount
      · cases stream <;> rfl
      · rw [pipes_made_concat, hcount, if_pos rfl]
  | makesStderr hcontrol =>
      have hcount := hstate.second hcontrol
      have hopen := hstate.pipes.start (.inl (by rw [hcontrol]; rfl))
      have hfresh : ∀ fd ∈ ends .stderr, fd ∉ obtained history := by
        rintro ⟨stream, writeEnd⟩ rfl hfd
        simp [obtained, hcount] at hfd
      have haccount := hstate.accounted.obtain_fresh hfresh
      have hboth : ends .stdout ∪ ends .stderr = Set.univ := by
        ext ⟨stream, writeEnd⟩
        cases stream <;> simp [ends]
      refine ⟨?_, pipes_open_before hopen (fun stream => ?_) (.inl rfl), by simp, by simp⟩
      · rw [obtained_second hcount]
        rwa [State.owned, hcontrol, hboth] at haccount
      · cases stream <;> rfl

theorem balanced_step {history : List Event} (hstate : Balanced history state)
    (h : step ctx state event = some next) : Balanced (history ++ [event]) next := by
  by_cases hpipe : event = .pipe none
  · subst hpipe
    exact balanced_pipe hstate h
  have hmade : pipesMade (history ++ [event]) = pipesMade history := by
    rw [pipes_made_concat, if_neg hpipe, Nat.add_zero]
  cases hevent : event.ofChild with
  | true =>
      obtain ⟨hcalls, hopen⟩ := child_leaves h hevent
      have hcontrol := (child_step h hevent).control
      refine ⟨?_, hstate.pipes.congr hcontrol hopen, fun hnext => ?_, fun hnext => ?_⟩
      · rw [obtained_other history hpipe]
        exact spends_rests hcalls (owned_congr hcontrol hopen) _ hstate.accounted
      · rw [hmade, hstate.first (hcontrol ▸ hnext)]
      · rw [hmade, hstate.second (hcontrol ▸ hnext)]
  | false =>
      have hstep := descriptor_step h hevent hpipe hstate.pipes
      refine ⟨?_, hstep.pipes, fun hnext => ?_, fun hnext => ?_⟩
      · rw [obtained_other history hpipe]
        exact hstep.spends _ hstate.accounted
      · exact absurd hnext hstep.made.1
      · exact absurd hnext hstep.made.2

theorem balanced_run {clock : Int} {events : List Event} {final : State}
    (hrun : runFrom ctx clock events = some final) : Balanced events final :=
  Transition.run_history balanced_step (balanced_initial clock) hrun

/-! ## Leaks and double closes -/

/-- No descriptor is leaked, closed twice, or touched while it is closed. -/
structure ClosesOnce (events : List Event) (final : State) : Prop where
  /-- Nothing is done with a descriptor after it was closed. -/
  after : ∀ before fd after, final.calls = before ++ .close fd :: after →
    ∀ call ∈ after, call.fd ≠ fd
  /-- Nor with one that `pipe` did not give. -/
  touched : ∀ call ∈ final.calls, call.fd ∈ obtained events
  once : final.control = .returned → ∀ fd ∈ obtained events, final.calls.count (.close fd) = 1

/-- The parent neither leaks a pipe end nor closes one twice, wherever it returns. -/
theorem descriptors_closed_once {clock : Int} {events : List Event} {final : State}
    (hrun : runFrom ctx clock events = some final) : ClosesOnce events final := by
  obtain ⟨haccount, -, -, -⟩ := balanced_run hrun
  refine ⟨fun before fd after hcalls call hmem => ?_, haccount.touched, fun hreturned fd hfd => ?_⟩
  · have horderly := haccount.orderly
    rw [Orderly, hcalls, List.pairwise_append] at horderly
    exact (List.pairwise_cons.mp horderly.2.1).1 call hmem rfl
  · have hnone : fd ∉ final.owned := by
      rw [State.owned, hreturned]
      exact Set.notMem_empty fd
    obtain ⟨call, rfl, hcloses, hcount⟩ := haccount.released_once hfd hnone
    rwa [← FdCall.eq_close hcloses]

/-- A run that reads both pipes to their ends. -/
theorem descriptors_closed_once_both :
    ∃ final, runFrom hangingProgram 0 printsAndExits = some final ∧ final.control = .returned ∧
      ClosesOnce printsAndExits final := by
  have hreturns : ∃ final, runFrom hangingProgram 0 printsAndExits = some final ∧
      final.control = .returned :=
    ⟨_, rfl, by decide⟩
  obtain ⟨final, hrun, hreturned⟩ := hreturns
  exact ⟨final, hrun, hreturned, descriptors_closed_once hrun⟩

end Process

end RuntimeAnalyzer
