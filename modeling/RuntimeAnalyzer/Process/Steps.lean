import RuntimeAnalyzer.Process.Model

/-!
# What a step can do

`parent_move` and `child_move` take the step function apart, branch by branch; nothing after this
module unfolds it. `parent_step` and `child_step` read off what the steps do to the parent's phase
(it sets up, reads in its loop, leaves the loop and returns), to the child's fate and to the
outcome. Every invariant of a run is a case analysis over one of these lists.
-/

namespace RuntimeAnalyzer

namespace Process

/-! ## Phases -/

/-- What the parent is doing. -/
inductive Phase
  | setUp
  | loop
  /-- The loop has been left: the last output is read and the child waited for. -/
  | leaving
  | returned
  deriving DecidableEq, Repr

def Control.phase : Control → Phase
  | .stdoutPipe | .stderrPipe | .setNonBlocking | .fork => .setUp
  | .arm | .head | .select _ _ | .drain _ _ false => .loop
  | .drain _ _ true | .waiting => .leaving
  | .returned => .returned

namespace Event

/-- An event that the parent does not take part in. -/
def ofChild : Event → Bool
  | setpgid | chdir _ | exec _ | write _ _ | close _ | leaveGroup | exit _ | signaled _
  | inherit _ | otherWrite _ _ | otherClose _ | tick _ => true
  | _ => false

/-- `select` or `waitpid` fails for good. -/
def fails : Event → Bool
  | selectFailed error | waitFailed error => error ≠ .eintr
  | _ => false

/-- The status with which an event ends the child. -/
def endStatus : Event → Option WaitStatus
  | chdir (some _) => some (.exited 126)
  | exec (some error) => some (execFailure error)
  | exit code => some (.exited code)
  | signaled signal => some (.signaled signal)
  | _ => none

/-- A write of the child or of a program it forked. -/
def ofWrite : Event → Bool
  | write _ _ | otherWrite _ _ => true
  | _ => false

/-- An answer of `select`. -/
def ofSelect : Event → Bool
  | selectReady | selectTimedOut | selectFailed _ => true
  | _ => false

end Event

/-! ## What operations leave alone -/

/-- The step leaves the child's fate and all of the outcome but the texts. -/
structure Keeps (state next : State) : Prop where
  child : next.child = state.child
  inGroup : next.inGroup = state.inGroup
  kills : next.kills = state.kills
  sigkill : next.sigkill = state.sigkill
  error : next.result.error = state.result.error
  timedOut : next.result.timedOut = state.result.timedOut
  exitCode : next.result.exitCode = state.result.exitCode

theorem Keeps.trans {first second third : State} (h : Keeps first second)
    (h' : Keeps second third) : Keeps first third where
  child := h'.child.trans h.child
  inGroup := h'.inGroup.trans h.inGroup
  kills := h'.kills.trans h.kills
  sigkill := h'.sigkill.trans h.sigkill
  error := h'.error.trans h.error
  timedOut := h'.timedOut.trans h.timedOut
  exitCode := h'.exitCode.trans h.exitCode

variable {ctx : Context} {state next : State} {event : Event}

theorem keeps_call (state : State) (calls : List FdCall) : Keeps state (state.call calls) :=
  ⟨rfl, rfl, rfl, rfl, rfl, rfl, rfl⟩

theorem keeps_set_pipe (state : State) (stream : Stream) (pipe : Pipe) :
    Keeps state (state.setPipe stream pipe) := by
  cases stream <;> exact ⟨rfl, rfl, rfl, rfl, rfl, rfl, rfl⟩

theorem keeps_append (state : State) (stream : Stream) (bytes : Bytes) :
    Keeps state (state.append stream bytes) := by
  cases stream <;> exact ⟨rfl, rfl, rfl, rfl, rfl, rfl, rfl⟩

theorem keeps_close_pipe (state : State) (stream : Stream) :
    Keeps state (state.closePipe stream) :=
  (keeps_set_pipe _ _ _).trans (keeps_call _ _)

theorem keeps_leave_loop (state : State) : Keeps state state.leaveLoop :=
  ⟨rfl, rfl, rfl, rfl, rfl, rfl, rfl⟩

theorem keeps_drain_then (state : State) (streams : List Stream) (leave : Bool) :
    Keeps state (state.drainThen streams leave) := by
  cases streams with
  | cons stream rest => exact ⟨rfl, rfl, rfl, rfl, rfl, rfl, rfl⟩
  | nil =>
      cases leave with
      | true => exact keeps_leave_loop state
      | false => exact ⟨rfl, rfl, rfl, rfl, rfl, rfl, rfl⟩

/-- Reading goes on in the phase it began in. -/
theorem phase_drain_then (state : State) (streams : List Stream) (leave : Bool) :
    (state.drainThen streams leave).control.phase = if leave then .leaving else .loop := by
  cases streams <;> cases leave <;> rfl

theorem phase_drain (stream : Stream) (rest : List Stream) (leave : Bool) :
    (Control.drain stream rest leave).phase = if leave then .leaving else .loop := by
  cases leave <;> rfl

theorem control_set_pipe (state : State) (stream : Stream) (pipe : Pipe) :
    (state.setPipe stream pipe).control = state.control := by
  cases stream <;> rfl

theorem control_append (state : State) (stream : Stream) (bytes : Bytes) :
    (state.append stream bytes).control = state.control := by
  cases stream <;> rfl

/-! ## The parent's steps -/

/-- What a step of the parent does. -/
inductive ParentStep (state next : State) : Event → Prop
  | setsUp {event : Event} (hevent : event.fails = false) (htimed : event ≠ .selectTimedOut)
      (hphase : state.control.phase = .setUp) (hnext : next.control.phase = .setUp)
      (hkeeps : Keeps state next) : ParentStep state next event
  | setUpFails {event : Event} (hevent : event.fails = false) (htimed : event ≠ .selectTimedOut)
      (hphase : state.control.phase = .setUp) (hnext : next.control = .returned)
      (hchild : next.child = state.child) (herror : next.result.error ≠ [])
      (htimedOut : next.result.timedOut = state.result.timedOut) : ParentStep state next event
  | forks (hphase : state.control.phase = .setUp) (hnext : next.control = .arm)
      (hchild : next.child = .starting .setpgid) (hsigkill : next.sigkill = state.sigkill)
      (hresult : next.result = state.result) : ParentStep state next (.fork none)
  | loops {event : Event} (hevent : event.fails = false) (htimed : event ≠ .selectTimedOut)
      (hready : event = .selectReady → state.readyStreams ≠ [])
      (hopen : event = .proceed → state.control = .head → state.openStreams ≠ [])
      (hphase : state.control.phase = .loop) (hnext : next.control.phase = .loop)
      (hkeeps : Keeps state next) : ParentStep state next event
  | ends (hphase : state.control = .head) (hopen : state.openStreams = [])
      (hnext : next.control = .waiting) (hkeeps : Keeps state next) :
      ParentStep state next .proceed
  | selectFails {error : Errno} (herrno : error ≠ .eintr) (hphase : state.control.phase = .loop)
      (hnext : next.control = .waiting) (hchild : next.child = state.child)
      (hsigkill : next.sigkill = state.sigkill) (herror : next.result.error ≠ [])
      (htimedOut : next.result.timedOut = state.result.timedOut) :
      ParentStep state next (.selectFailed error)
  | kills (hphase : state.control.phase = .loop) (hready : state.readyStreams = [])
      (hnext : next.control.phase = .leaving) (hchild : next.child = state.child)
      (hsigkill : next.sigkill = (state.sigkill || state.inGroup))
      (herror : next.result.error = state.result.error) (htimedOut : next.result.timedOut = true)
      (hkills : next.kills = state.kills + 1) : ParentStep state next .selectTimedOut
  | leaves {event : Event} (hevent : event.fails = false) (htimed : event ≠ .selectTimedOut)
      (hphase : state.control.phase = .leaving) (hnext : next.control.phase = .leaving)
      (hkeeps : Keeps state next) : ParentStep state next event
  | returns {status : WaitStatus} (hphase : state.control = .waiting)
      (hzombie : state.child = .zombie status) (hnext : next.control = .returned)
      (hchild : next.child = .reaped status) (hexit : next.result.exitCode = exitCodeOf status)
      (herror : next.result.error = state.result.error)
      (htimedOut : next.result.timedOut = state.result.timedOut) : ParentStep state next .waited
  | waitFails {error : Errno} (herrno : error ≠ .eintr) (hphase : state.control = .waiting)
      (hnext : next.control = .returned) (hchild : next.child = state.child)
      (herror : next.result.error ≠ [])
      (htimedOut : next.result.timedOut = state.result.timedOut) :
      ParentStep state next (.waitFailed error)

/-- The text of an error is not empty. -/
theorem fail_error_ne (state : State) (call text : Bytes) :
    (state.fail call text).result.error ≠ [] := by
  simp [State.fail]

/-- A step back into `AppendFromFd` or out of it stays in the phase. -/
theorem parent_drain {stream : Stream} {rest : List Stream} {leave : Bool}
    (hcontrol : state.control = .drain stream rest leave) (hevent : event.fails = false)
    (htimed : event ≠ .selectTimedOut) (hready : event ≠ .selectReady)
    (hnext : next.control.phase = if leave then .leaving else .loop) (hkeeps : Keeps state next) :
    ParentStep state next event := by
  have hphase : state.control.phase = if leave then .leaving else .loop := by
    rw [hcontrol, phase_drain]
  cases leave with
  | true => exact .leaves hevent htimed hphase hnext hkeeps
  | false =>
      refine .loops hevent htimed (fun h => absurd h hready) (fun _ hhead => ?_) hphase hnext hkeeps
      rw [hcontrol] at hhead
      cases hhead

/-- What a step of the parent makes of the state, branch by branch. -/
inductive ParentMove (ctx : Context) (state : State) : Event → State → Prop
  | makesStdout (hcontrol : state.control = .stdoutPipe) :
      ParentMove ctx state (.pipe none) { state with control := .stderrPipe }
  | stdoutFails {errno : Errno} (hcontrol : state.control = .stdoutPipe) :
      ParentMove ctx state (.pipe (some errno)) (state.fail (lit "pipe") (ctx.strerror errno))
  | makesStderr (hcontrol : state.control = .stderrPipe) :
      ParentMove ctx state (.pipe none) { state with control := .setNonBlocking }
  | stderrFails {errno : Errno} (hcontrol : state.control = .stderrPipe) :
      ParentMove ctx state (.pipe (some errno))
        ((state.fail (lit "pipe") (ctx.strerror errno)).call
          [.close ⟨.stdout, false⟩, .close ⟨.stdout, true⟩])
  | setsNonBlocking {stdoutSet stderrSet : Bool} (hcontrol : state.control = .setNonBlocking) :
      ParentMove ctx state (.fcntl stdoutSet stderrSet)
        { state.call
            [.fcntl ⟨.stdout, false⟩, .fcntl ⟨.stderr, false⟩, .fcntl ⟨.stdout, false⟩,
              .fcntl ⟨.stderr, false⟩] with
          control := .fork
          stdoutPipe := { state.stdoutPipe with nonBlocking := stdoutSet }
          stderrPipe := { state.stderrPipe with nonBlocking := stderrSet } }
  | forks (hcontrol : state.control = .fork) :
      ParentMove ctx state (.fork none)
        { state with
          control := .arm
          child := .starting .setpgid
          stdoutPipe := { state.stdoutPipe with leaderEnd := true }
          stderrPipe := { state.stderrPipe with leaderEnd := true } }
  | forkFails {errno : Errno} (hcontrol : state.control = .fork) :
      ParentMove ctx state (.fork (some errno))
        ((state.fail (lit "fork") (ctx.strerror errno)).call
          [.close ⟨.stdout, false⟩, .close ⟨.stdout, true⟩, .close ⟨.stderr, false⟩,
            .close ⟨.stderr, true⟩])
  | arms (hcontrol : state.control = .arm) :
      ParentMove ctx state .proceed
        { state.call [.close ⟨.stdout, true⟩, .close ⟨.stderr, true⟩] with
          control := .head
          deadline := deadlineFrom state.clock ctx.spec.timeout }
  | endsLoop (hcontrol : state.control = .head) (hopen : state.openStreams = []) :
      ParentMove ctx state .proceed state.leaveLoop
  | selects (hcontrol : state.control = .head) (hopen : state.openStreams ≠ []) :
      ParentMove ctx state .proceed
        { state.call (state.openStreams.map (.select ⟨·, false⟩)) with
          control := .select (waitFrom state.clock state.deadline) state.clock }
  | selectReady {wait : Option Nat} {since : Int} (hcontrol : state.control = .select wait since)
      (hready : state.readyStreams ≠ []) :
      ParentMove ctx state .selectReady (state.drainThen state.readyStreams false)
  | selectTimesOut {micros : Nat} {since : Int}
      (hcontrol : state.control = .select (some micros) since) (hready : state.readyStreams = [])
      (htime : since + micros * 1000 ≤ state.clock) :
      ParentMove ctx state .selectTimedOut
        ({ state.killGroup with result.timedOut := true }.drainThen state.openStreams true)
  | selectRetries {wait : Option Nat} {since : Int}
      (hcontrol : state.control = .select wait since) :
      ParentMove ctx state (.selectFailed .eintr) { state with control := .head }
  | selectFails {wait : Option Nat} {since : Int} {errno : Errno}
      (hcontrol : state.control = .select wait since) (herrno : errno ≠ .eintr) :
      ParentMove ctx state (.selectFailed errno)
        { state with result.error := lit "select failed: " ++ ctx.strerror errno }.leaveLoop
  | reads {count : Nat} {stream : Stream} {rest : List Stream} {leave : Bool}
      (hcontrol : state.control = .drain stream rest leave)
      (hcount : 1 ≤ count ∧ count ≤ 4096 ∧ count ≤ (state.pipe stream).buffer.length) :
      ParentMove ctx state (.read count)
        (((state.append stream ((state.pipe stream).buffer.take count)).setPipe stream
          { state.pipe stream with buffer := (state.pipe stream).buffer.drop count }).call
            [.read ⟨stream, false⟩])
  | readsEof {stream : Stream} {rest : List Stream} {leave : Bool}
      (hcontrol : state.control = .drain stream rest leave)
      (hempty : (state.pipe stream).buffer = [])
      (hwriter : (state.pipe stream).hasWriter = false) :
      ParentMove ctx state .readEof
        (((state.call [.read ⟨stream, false⟩]).closePipe stream).drainThen rest leave)
  | readRetries {stream : Stream} {rest : List Stream} {leave : Bool}
      (hcontrol : state.control = .drain stream rest leave) :
      ParentMove ctx state (.readFailed .eintr) (state.call [.read ⟨stream, false⟩])
  | readAgain {stream : Stream} {rest : List Stream} {leave : Bool}
      (hcontrol : state.control = .drain stream rest leave)
      (hquiet : (state.pipe stream).readable = false)
      (hblock : (state.pipe stream).nonBlocking = true) :
      ParentMove ctx state (.readFailed .eagain)
        ((state.call [.read ⟨stream, false⟩]).drainThen rest leave)
  | readFails {stream : Stream} {rest : List Stream} {leave : Bool} {errno : Errno}
      (hcontrol : state.control = .drain stream rest leave)
      (herrno : ¬ (errno = .eintr ∨ errno = .eagain)) :
      ParentMove ctx state (.readFailed errno)
        (((state.call [.read ⟨stream, false⟩]).closePipe stream).drainThen rest leave)
  | waits {status : WaitStatus} (hcontrol : state.control = .waiting)
      (hchild : state.child = .zombie status) :
      ParentMove ctx state .waited
        { state with
          control := .returned
          child := .reaped status
          result.exitCode := exitCodeOf status }
  | waitRetries (hcontrol : state.control = .waiting) :
      ParentMove ctx state (.waitFailed .eintr) state
  | waitFails {errno : Errno} (hcontrol : state.control = .waiting) (herrno : errno ≠ .eintr) :
      ParentMove ctx state (.waitFailed errno)
        (state.fail (lit "waitpid") (ctx.strerror errno))

/-- Every step that the parent takes part in is one of those. -/
theorem parent_move (h : step ctx state event = some next) (hevent : event.ofChild = false) :
    ParentMove ctx state event next := by
  cases event with
  | pipe error =>
      simp only [step, State.onPipe] at h
      split at h <;> cases h
      · exact .makesStdout ‹_›
      · exact .stdoutFails ‹_›
      · exact .makesStderr ‹_›
      · exact .stderrFails ‹_›
  | fcntl stdoutSet stderrSet =>
      simp only [step, State.onFcntl] at h
      split at h <;> cases h
      exact .setsNonBlocking ‹_›
  | fork error =>
      simp only [step, State.onFork] at h
      split at h <;> cases h
      · exact .forks ‹_›
      · exact .forkFails ‹_›
  | proceed =>
      simp only [step, State.onProceed] at h
      split at h
      · cases h
        exact .arms ‹_›
      · split at h <;> cases h
        · exact .endsLoop ‹_› ‹_›
        · exact .selects ‹_› ‹_›
      · cases h
  | selectReady =>
      simp only [step, State.onSelectReady] at h
      split at h
      · split at h <;> cases h
        exact .selectReady ‹_› ‹_›
      · cases h
  | selectTimedOut =>
      simp only [step, State.onSelectTimedOut] at h
      split at h
      · split at h
        · rename_i hquiet
          cases h
          exact .selectTimesOut ‹_› hquiet.1 hquiet.2
        · cases h
      · cases h
  | selectFailed error =>
      simp only [step, State.onSelectFailed] at h
      split at h
      · split at h
        · rename_i hintr
          cases h
          subst hintr
          exact .selectRetries ‹_›
        · cases h
          exact .selectFails ‹_› ‹_›
      · cases h
  | read count =>
      simp only [step, State.onRead] at h
      split at h
      · split at h <;> cases h
        exact .reads ‹_› ‹_›
      · cases h
  | readEof =>
      simp only [step, State.onReadEof] at h
      split at h
      · split at h
        · rename_i hend
          cases h
          exact .readsEof ‹_› hend.1 hend.2
        · cases h
      · cases h
  | readFailed error =>
      simp only [step, State.onReadFailed] at h
      split at h
      · rename_i target rest leave hcontrol
        split at h
        · cases h
          exact .readRetries hcontrol
        · split at h
          · rename_i hquiet
            cases h
            exact .readAgain hcontrol (by cases target <;> exact hquiet.2)
              (by cases target <;> exact hquiet.1)
          · cases h
        · rename_i hintr hagain
          cases h
          exact .readFails hcontrol (not_or.mpr ⟨hintr, hagain⟩)
      · cases h
  | waited =>
      simp only [step, State.onWaited] at h
      split at h <;> cases h
      exact .waits ‹_› ‹_›
  | waitFailed error =>
      simp only [step, State.onWaitFailed] at h
      split at h
      · split at h
        · rename_i hintr
          cases h
          subst hintr
          exact .waitRetries ‹_›
        · cases h
          exact .waitFails ‹_› ‹_›
      · cases h
  | _ => cases hevent

/-- And each of those is a step. -/
theorem step_of_move (h : ParentMove ctx state event next) : step ctx state event = some next := by
  cases h with
  | makesStdout hcontrol | stdoutFails hcontrol | makesStderr hcontrol | stderrFails hcontrol =>
      simp [step, State.onPipe, hcontrol]
  | setsNonBlocking hcontrol => simp [step, State.onFcntl, hcontrol]
  | forks hcontrol | forkFails hcontrol => simp [step, State.onFork, hcontrol]
  | arms hcontrol => simp [step, State.onProceed, hcontrol]
  | endsLoop hcontrol hopen | selects hcontrol hopen =>
      simp [step, State.onProceed, hcontrol, hopen]
  | selectReady hcontrol hready => simp [step, State.onSelectReady, hcontrol, hready]
  | selectTimesOut hcontrol hready htime =>
      simp [step, State.onSelectTimedOut, hcontrol, hready, htime]
  | selectRetries hcontrol => simp [step, State.onSelectFailed, hcontrol]
  | selectFails hcontrol herrno => simp [step, State.onSelectFailed, hcontrol, herrno]
  | reads hcontrol hcount => simp [step, State.onRead, hcontrol, hcount]
  | readsEof hcontrol hempty hwriter => simp [step, State.onReadEof, hcontrol, hempty, hwriter]
  | readRetries hcontrol => simp [step, State.onReadFailed, hcontrol]
  | @readAgain target rest leave hcontrol hquiet hblock =>
      have hsame : (state.call [.read ⟨target, false⟩]).pipe target = state.pipe target := by
        cases target <;> rfl
      simp [step, State.onReadFailed, hcontrol, hsame, hquiet, hblock]
  | @readFails target rest leave errno hcontrol herrno =>
      rw [not_or] at herrno
      cases errno <;> simp_all [step, State.onReadFailed]
  | waits hcontrol hchild => simp [step, State.onWaited, hcontrol, hchild]
  | waitRetries hcontrol => simp [step, State.onWaitFailed, hcontrol]
  | waitFails hcontrol herrno => simp [step, State.onWaitFailed, hcontrol, herrno]

/-- What such a step does to the phase, to the child's fate and to the outcome. -/
theorem parent_step (h : step ctx state event = some next) (hevent : event.ofChild = false) :
    ParentStep state next event := by
  cases parent_move h hevent with
  | makesStdout hcontrol | makesStderr hcontrol | setsNonBlocking hcontrol =>
      exact .setsUp rfl nofun (by rw [hcontrol]; rfl) rfl ⟨rfl, rfl, rfl, rfl, rfl, rfl, rfl⟩
  | stdoutFails hcontrol | stderrFails hcontrol | forkFails hcontrol =>
      exact .setUpFails rfl nofun (by rw [hcontrol]; rfl) rfl rfl (fail_error_ne state _ _) rfl
  | forks hcontrol => exact .forks (by rw [hcontrol]; rfl) rfl rfl rfl rfl
  | arms hcontrol =>
      refine .loops rfl nofun nofun (fun _ hhead => ?_) (by rw [hcontrol]; rfl) rfl
        ⟨rfl, rfl, rfl, rfl, rfl, rfl, rfl⟩
      rw [hcontrol] at hhead
      cases hhead
  | endsLoop hcontrol hopen => exact .ends hcontrol hopen rfl (keeps_leave_loop state)
  | selects hcontrol hopen =>
      exact .loops rfl nofun nofun (fun _ _ => hopen) (by rw [hcontrol]; rfl) rfl
        ⟨rfl, rfl, rfl, rfl, rfl, rfl, rfl⟩
  | selectReady hcontrol hready =>
      exact .loops rfl nofun (fun _ => hready) nofun (by rw [hcontrol]; rfl)
        (phase_drain_then _ _ _) (keeps_drain_then _ _ _)
  | selectTimesOut hcontrol hready =>
      have hkeeps := keeps_drain_then { state.killGroup with result.timedOut := true }
        state.openStreams true
      exact .kills (by rw [hcontrol]; rfl) hready (phase_drain_then _ _ _) hkeeps.child
        hkeeps.sigkill hkeeps.error hkeeps.timedOut hkeeps.kills
  | selectRetries hcontrol =>
      exact .loops rfl nofun nofun nofun (by rw [hcontrol]; rfl) rfl
        ⟨rfl, rfl, rfl, rfl, rfl, rfl, rfl⟩
  | @selectFails wait since errno hcontrol herrno =>
      have herror : lit "select failed: " ++ ctx.strerror errno ≠ [] := by simp
      exact .selectFails herrno (by rw [hcontrol]; rfl) rfl rfl rfl herror rfl
  | reads hcontrol =>
      refine parent_drain hcontrol rfl nofun nofun ?_
        (((keeps_append _ _ _).trans (keeps_set_pipe _ _ _)).trans (keeps_call _ _))
      show Control.phase (State.setPipe _ _ _).control = _
      rw [control_set_pipe, control_append, hcontrol, phase_drain]
  | readsEof hcontrol =>
      exact parent_drain hcontrol rfl nofun nofun (phase_drain_then _ _ _)
        (((keeps_call _ _).trans (keeps_close_pipe _ _)).trans (keeps_drain_then _ _ _))
  | readRetries hcontrol =>
      refine parent_drain hcontrol rfl nofun nofun ?_ (keeps_call _ _)
      show state.control.phase = _
      rw [hcontrol, phase_drain]
  | readAgain hcontrol =>
      exact parent_drain hcontrol rfl nofun nofun (phase_drain_then _ _ _)
        ((keeps_call _ _).trans (keeps_drain_then _ _ _))
  | readFails hcontrol =>
      exact parent_drain hcontrol rfl nofun nofun (phase_drain_then _ _ _)
        (((keeps_call _ _).trans (keeps_close_pipe _ _)).trans (keeps_drain_then _ _ _))
  | waits hcontrol hchild => exact .returns hcontrol hchild rfl rfl rfl rfl rfl
  | waitRetries hcontrol =>
      exact .leaves rfl nofun (by rw [hcontrol]; rfl) (by rw [hcontrol]; rfl)
        ⟨rfl, rfl, rfl, rfl, rfl, rfl, rfl⟩
  | waitFails hcontrol herrno =>
      exact .waitFails herrno hcontrol rfl rfl (fail_error_ne _ _ _) rfl

/-! ## The other steps -/

/-- A step that the parent takes no part in leaves it and its result alone. It may end the child,
by the status of the event, or move it on. -/
structure ChildStep (state next : State) (event : Event) : Prop where
  control : next.control = state.control
  result : next.result = state.result
  sigkill : next.sigkill = state.sigkill
  deadline : next.deadline = state.deadline
  ended : ∀ status, event.endStatus = some status →
    state.child.live = true ∧ next.child = .zombie status
  unended : event.endStatus = none →
    next.child = state.child ∨ (state.child.live = true ∧ next.child.live = true)

/-- What such a step makes of the state. -/
inductive ChildMove (state next : State) (event : Event) : Prop
  /-- The child may go on; nothing of the parent's or of the pipes changes. -/
  | rests {child : Child} {inGroup : Bool} {clock : Int} (hend : event.endStatus = none)
      (hwrite : event.ofWrite = false) (hnext : next = { state with child, inGroup, clock })
      (hchild : child = state.child ∨ (state.child.live = true ∧ child.live = true)) :
      ChildMove state next event
  | ends {status : WaitStatus} (hend : event.endStatus = some status)
      (hwrite : event.ofWrite = false) (hlive : state.child.live = true)
      (hnext : next = state.childEnds status) : ChildMove state next event
  | writes {stream : Stream} {bytes : Bytes}
      (hevent : event = .write stream bytes ∨ event = .otherWrite stream bytes)
      (hopen : (state.pipe stream).isOpen = true)
      (hnext : next = state.setPipe stream
        { state.pipe stream with buffer := (state.pipe stream).buffer ++ bytes }) :
      ChildMove state next event
  /-- A write end is closed or inherited. -/
  | setsEnds {stream : Stream} {pipe : Pipe} (hnext : next = state.setPipe stream pipe)
      (hbuffer : pipe.buffer = (state.pipe stream).buffer)
      (hopen : pipe.isOpen = (state.pipe stream).isOpen) (hend : event.endStatus = none)
      (hwrite : event.ofWrite = false) : ChildMove state next event

/-- Every step that the parent takes no part in is one of those. -/
theorem child_move (h : step ctx state event = some next) (hevent : event.ofChild = true) :
    ChildMove state next event := by
  cases event with
  | setpgid =>
      simp only [step, State.onSetpgid] at h
      split at h
      · rename_i hchild
        cases h
        exact .rests rfl rfl rfl (.inr ⟨by rw [hchild]; rfl, rfl⟩)
      · cases h
  | chdir error =>
      simp only [step, State.onChdir] at h
      split at h
      · rename_i hchild
        cases h
        exact .rests rfl rfl rfl (.inr ⟨by rw [hchild]; rfl, rfl⟩)
      · rename_i hchild
        cases h
        exact .ends rfl rfl (by rw [hchild]; rfl) rfl
      · cases h
  | exec error =>
      simp only [step, State.onExec] at h
      split at h
      · rename_i hchild
        cases h
        exact .rests rfl rfl rfl (.inr ⟨by rw [hchild]; rfl, rfl⟩)
      · rename_i hchild
        cases h
        exact .ends rfl rfl (by rw [hchild]; rfl) rfl
      · cases h
  | write stream bytes =>
      simp only [step, State.onWrite] at h
      split at h
      · rename_i hopen
        cases h
        exact .writes (.inl rfl) hopen.2.2 rfl
      · cases h
  | close stream =>
      simp only [step, State.onClose] at h
      split at h <;> cases h
      exact .setsEnds rfl rfl rfl rfl rfl
  | leaveGroup =>
      simp only [step, State.onLeaveGroup] at h
      split at h <;> cases h
      exact .rests rfl rfl rfl (.inl rfl)
  | exit code =>
      simp only [step, State.onExit] at h
      split at h
      · rename_i hchild
        cases h
        exact .ends rfl rfl (by rw [hchild]; rfl) rfl
      · cases h
  | signaled signal =>
      simp only [step, State.onSignaled] at h
      split at h
      · rename_i hlive
        cases h
        exact .ends rfl rfl hlive.1 rfl
      · cases h
  | inherit stream =>
      simp only [step, State.onInherit] at h
      split at h <;> cases h
      exact .setsEnds rfl rfl rfl rfl rfl
  | otherWrite stream bytes =>
      simp only [step, State.onOtherWrite] at h
      split at h
      · rename_i hopen
        cases h
        exact .writes (.inr rfl) hopen.2 rfl
      · cases h
  | otherClose stream =>
      simp only [step, State.onOtherClose] at h
      split at h <;> cases h
      exact .setsEnds rfl rfl rfl rfl rfl
  | tick nanoseconds =>
      cases h
      exact .rests rfl rfl rfl (.inl rfl)
  | _ => cases hevent

/-- A step that changes a pipe does not move the child. -/
theorem child_step_set_pipe (stream : Stream) (pipe : Pipe) (hend : event.endStatus = none) :
    ChildStep state (state.setPipe stream pipe) event := by
  have hkeeps := keeps_set_pipe state stream pipe
  refine ⟨control_set_pipe state stream pipe, ?_, hkeeps.sigkill, ?_, ?_, fun _ => ?_⟩
  · cases stream <;> rfl
  · cases stream <;> rfl
  · intro status h
    rw [hend] at h
    cases h
  · exact .inl hkeeps.child

/-- What such a step leaves alone, and what it does to the child. -/
theorem child_step (h : step ctx state event = some next) (hevent : event.ofChild = true) :
    ChildStep state next event := by
  cases child_move h hevent with
  | rests hend _ hnext hchild =>
      subst hnext
      exact ⟨rfl, rfl, rfl, rfl, fun status h => by simp [hend] at h, fun _ => hchild⟩
  | ends hend _ hlive hnext =>
      subst hnext
      refine ⟨rfl, rfl, rfl, rfl, fun ended h => ?_, fun h => by simp [hend] at h⟩
      rw [hend, Option.some.injEq] at h
      exact ⟨hlive, by rw [← h]; rfl⟩
  | writes hwrite _ hnext =>
      subst hnext
      exact child_step_set_pipe _ _ (by rcases hwrite with rfl | rfl <;> rfl)
  | setsEnds hnext _ _ hend =>
      subst hnext
      exact child_step_set_pipe _ _ hend

/-! ## Write ends -/

/-- A pipe whose ends become those of another pipe without a writer. -/
theorem no_writer_set_pipe {stream target : Stream} {pipe : Pipe}
    (hnone : (state.pipe stream).hasWriter = false)
    (hpipe : stream = target → pipe.hasWriter = false) :
    ((state.setPipe target pipe).pipe stream).hasWriter = false := by
  cases stream <;> cases target <;> first | exact hnone | exact hpipe rfl

/-- Write ends are inherited from a writer, so a pipe without one gets none from a step that the
parent takes no part in. -/
theorem no_writer_child_step {stream : Stream} (h : step ctx state event = some next)
    (hevent : event.ofChild = true) (hnone : (state.pipe stream).hasWriter = false) :
    (next.pipe stream).hasWriter = false := by
  have hends : (state.pipe stream).leaderEnd = false ∧ (state.pipe stream).otherEnds = 0 := by
    simpa [Pipe.hasWriter] using hnone
  have hended : ∀ status, ((state.childEnds status).pipe stream).hasWriter = false := by
    intro status
    have hother : (state.pipe stream).otherEnds = 0 := hends.2
    cases stream <;> simp_all [State.childEnds, State.pipe, Pipe.hasWriter]
  cases event with
  | setpgid | leaveGroup =>
      simp only [step, State.onSetpgid, State.onLeaveGroup] at h
      split at h <;> cases h
      cases stream <;> exact hnone
  | chdir error | exec error =>
      simp only [step, State.onChdir, State.onExec] at h
      split at h <;> cases h
      · cases stream <;> exact hnone
      · exact hended _
  | write target bytes | otherWrite target bytes =>
      simp only [step, State.onWrite, State.onOtherWrite] at h
      split at h <;> cases h
      exact no_writer_set_pipe hnone fun heq => heq ▸ hnone
  | close target =>
      simp only [step, State.onClose] at h
      split at h <;> cases h
      refine no_writer_set_pipe hnone ?_
      rintro rfl
      simp [Pipe.hasWriter, hends.2]
  | exit code | signaled signal =>
      simp only [step, State.onExit, State.onSignaled] at h
      split at h <;> cases h
      exact hended _
  | inherit target =>
      simp only [step, State.onInherit] at h
      split at h <;> cases h
      rename_i hwriter
      refine no_writer_set_pipe hnone ?_
      rintro rfl
      simp [hends.1, hends.2] at hwriter
  | otherClose target =>
      simp only [step, State.onOtherClose] at h
      split at h <;> cases h
      rename_i hother
      refine no_writer_set_pipe hnone ?_
      rintro rfl
      exact absurd hends.2 hother
  | tick nanoseconds =>
      cases h
      cases stream <;> exact hnone
  | _ => cases hevent

/-! ## The clock -/

/-- The clock does not go back. -/
theorem clock_child_step (h : step ctx state event = some next) (hevent : event.ofChild = true) :
    state.clock ≤ next.clock := by
  cases event with
  | setpgid | leaveGroup =>
      simp only [step, State.onSetpgid, State.onLeaveGroup] at h
      split at h <;> cases h
      exact Int.le_refl _
  | chdir error | exec error =>
      simp only [step, State.onChdir, State.onExec] at h
      split at h <;> cases h <;> exact Int.le_refl _
  | write target bytes | otherWrite target bytes | close target | inherit target
    | otherClose target =>
      simp only [step, State.onWrite, State.onOtherWrite, State.onClose, State.onInherit,
        State.onOtherClose] at h
      split at h <;> cases h
      cases target <;> exact Int.le_refl _
  | exit code | signaled signal =>
      simp only [step, State.onExit, State.onSignaled] at h
      split at h <;> cases h
      exact Int.le_refl _
  | tick nanoseconds =>
      cases h
      show state.clock ≤ state.clock + nanoseconds
      omega
  | _ => cases hevent

/-- The parent takes no time. -/
theorem clock_parent_step (h : step ctx state event = some next) (hevent : event.ofChild = false) :
    next.clock = state.clock := by
  have hdrain : ∀ (state : State) (streams : List Stream) (leave : Bool),
      (state.drainThen streams leave).clock = state.clock := by
    intro state streams leave
    cases streams <;> cases leave <;> rfl
  cases parent_move h hevent with
  | selectReady | selectTimesOut | readAgain => exact hdrain _ _ _
  | @readsEof target | @readFails target => exact (hdrain _ _ _).trans (by cases target <;> rfl)
  | @reads count target => cases target <;> rfl
  | _ => rfl

/-- The deadline is set once, before the loop. -/
theorem deadline_parent_step (h : step ctx state event = some next) (hevent : event.ofChild = false)
    (harm : state.control ≠ .arm) : next.deadline = state.deadline := by
  have hdrain : ∀ (state : State) (streams : List Stream) (leave : Bool),
      (state.drainThen streams leave).deadline = state.deadline := by
    intro state streams leave
    cases streams <;> cases leave <;> rfl
  cases parent_move h hevent with
  | arms hcontrol => exact absurd hcontrol harm
  | selectReady | selectTimesOut | readAgain => exact hdrain _ _ _
  | @readsEof target | @readFails target => exact (hdrain _ _ _).trans (by cases target <;> rfl)
  | @reads count target => cases target <;> rfl
  | _ => rfl

end Process

end RuntimeAnalyzer
