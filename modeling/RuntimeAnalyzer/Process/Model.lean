import RuntimeAnalyzer.Lib.Transition
import RuntimeAnalyzer.Process.Types

/-!
# The process runner as a transition system

`RunProcess` with the child it forks, the two pipes between them and the kernel. An event is an
answer of the kernel to the parent's next call, an action of the child or of a program it forked,
or the passing of time; `step` is what the event does. Every order of events that the kernel
permits is a run, so a statement about all runs is one about every schedule.
-/

namespace RuntimeAnalyzer

namespace Process

/-! ## The parts of the system -/

/-- The values of `errno` that the code tells apart, and the rest. -/
inductive Errno
  | eintr
  /-- `EAGAIN`, which is `EWOULDBLOCK` too. -/
  | eagain
  | enoent
  | other (code : Nat)
  deriving DecidableEq, Repr

inductive Stream
  | stdout
  | stderr
  deriving DecidableEq, Repr

/-- A descriptor that `pipe` gave the parent: `stdout_pipe[0]` is the read end of stdout. -/
structure Fd where
  stream : Stream
  writeEnd : Bool
  deriving DecidableEq, Repr

/-- A call of the parent on one of these descriptors. -/
inductive FdCall
  | fcntl (fd : Fd)
  | select (fd : Fd)
  | read (fd : Fd)
  | close (fd : Fd)
  deriving DecidableEq, Repr

/-- A pipe as the parent reads it. -/
structure Pipe where
  /-- `stdout_open` or `stderr_open`. -/
  isOpen : Bool := true
  /-- `SetNonBlocking` succeeded. -/
  nonBlocking : Bool := true
  /-- The child holds a write end. -/
  leaderEnd : Bool := false
  /-- The number of write ends that programs forked by the child hold. -/
  otherEnds : Nat := 0
  /-- What was written and not yet read. -/
  buffer : Bytes := []
  deriving DecidableEq, Repr

/-- The status that `waitpid` stores. -/
inductive WaitStatus
  | exited (code : UInt8)
  | signaled (signal : Nat)
  | other
  deriving DecidableEq, Repr

/-- What the child still has to do before `execv`. -/
inductive StartUp
  | setpgid
  | chdir
  | exec
  deriving DecidableEq, Repr

inductive Child
  | absent
  | starting (next : StartUp)
  /-- It runs the instrumented program. -/
  | running
  | zombie (status : WaitStatus)
  | reaped (status : WaitStatus)
  deriving DecidableEq, Repr

/-- Where the parent is in `RunProcess`. -/
inductive Control
  | stdoutPipe
  | stderrPipe
  | setNonBlocking
  | fork
  /-- The write ends are to be closed and the deadline set. -/
  | arm
  /-- The head of the loop. -/
  | head
  /-- In `select`, called at `since` with a wait of so many microseconds, if any. -/
  | select (wait : Option Nat) (since : Int)
  /-- In `AppendFromFd`, for each stream in turn; then out of the loop or to its head. -/
  | drain (stream : Stream) (rest : List Stream) (leave : Bool)
  /-- In `waitpid`. -/
  | waiting
  | returned
  deriving DecidableEq, Repr

structure State where
  control : Control := .stdoutPipe
  result : ProcessResult := {}
  child : Child := .absent
  /-- The child is in the process group that has its number. -/
  inGroup : Bool := false
  /-- How often `kill(-pid, SIGKILL)` was called, whoever was in the group. -/
  kills : Nat := 0
  /-- SIGKILL was sent to that group with the child in it. -/
  sigkill : Bool := false
  /-- The steady clock, in nanoseconds. -/
  clock : Int := 0
  deadline : Option Int := none
  stdoutPipe : Pipe := {}
  stderrPipe : Pipe := {}
  /-- The calls the parent has made on its descriptors. -/
  calls : List FdCall := []
  deriving DecidableEq, Repr

inductive Event
  /-- `pipe` returns, or fails. -/
  | pipe (error : Option Errno)
  /-- The calls of `SetCloseOnExec` and `SetNonBlocking` return; whether the latter two succeed. -/
  | fcntl (stdoutSet stderrSet : Bool)
  /-- `fork` returns in the parent, or fails. -/
  | fork (error : Option Errno)
  /-- The parent goes on to its next call. -/
  | proceed
  | selectReady
  | selectTimedOut
  | selectFailed (error : Errno)
  /-- `read` returns so many bytes. -/
  | read (count : Nat)
  | readEof
  | readFailed (error : Errno)
  /-- `waitpid` returns the child. -/
  | waited
  | waitFailed (error : Errno)
  /-- The child's calls before the program. -/
  | setpgid
  | chdir (error : Option Errno)
  | exec (error : Option Errno)
  /-- The program writes, closes a stream, moves to another process group, exits. -/
  | write (stream : Stream) (bytes : Bytes)
  | close (stream : Stream)
  | leaveGroup
  | exit (code : UInt8)
  /-- A signal ends the child. -/
  | signaled (signal : Nat)
  /-- A process with a stream forks another one, which keeps the stream. -/
  | inherit (stream : Stream)
  /-- A program forked by the child writes or closes a stream. -/
  | otherWrite (stream : Stream) (bytes : Bytes)
  | otherClose (stream : Stream)
  | tick (nanoseconds : Nat)
  deriving DecidableEq, Repr

/-- What a run of the runner depends on: its argument, and the texts of `strerror`. -/
structure Context where
  spec : ProcessSpec
  strerror : Errno → Bytes

/-! ## Operations on states -/

namespace Pipe

/-- Some process holds a write end. -/
def hasWriter (pipe : Pipe) : Bool :=
  pipe.leaderEnd || pipe.otherEnds ≠ 0

/-- `read` does not block: there are bytes, or the end of the file is reached. -/
def readable (pipe : Pipe) : Bool :=
  pipe.buffer ≠ [] || !pipe.hasWriter

end Pipe

namespace Child

/-- The child has not exited. -/
def live : Child → Bool
  | starting _ | running => true
  | _ => false

/-- The child was started and has exited. -/
def hasExited : Child → Bool
  | zombie _ | reaped _ => true
  | _ => false

end Child

namespace State

def pipe (state : State) : Stream → Pipe
  | .stdout => state.stdoutPipe
  | .stderr => state.stderrPipe

def setPipe (state : State) (stream : Stream) (pipe : Pipe) : State :=
  match stream with
  | .stdout => { state with stdoutPipe := pipe }
  | .stderr => { state with stderrPipe := pipe }

/-- `output.append(buffer, count)` -/
def append (state : State) (stream : Stream) (bytes : Bytes) : State :=
  match stream with
  | .stdout => { state with result.stdoutText := state.result.stdoutText ++ bytes }
  | .stderr => { state with result.stderrText := state.result.stderrText ++ bytes }

def call (state : State) (calls : List FdCall) : State :=
  { state with calls := state.calls ++ calls }

/-- The streams whose pipes are open, stdout first. -/
def openStreams (state : State) : List Stream :=
  [Stream.stdout, .stderr].filter (state.pipe · |>.isOpen)

/-- The streams that `select` reports. -/
def readyStreams (state : State) : List Stream :=
  state.openStreams.filter (state.pipe · |>.readable)

/-- Returns with an error. -/
def fail (state : State) (call : Bytes) (text : Bytes) : State :=
  { state with control := .returned, result.error := call ++ lit " failed: " ++ text }

/-- Closes the pipes that are still open after the loop and goes on to `waitpid`. -/
def leaveLoop (state : State) : State :=
  { state.call (state.openStreams.map (.close ⟨·, false⟩)) with
    control := .waiting
    stdoutPipe := { state.stdoutPipe with isOpen := false }
    stderrPipe := { state.stderrPipe with isOpen := false } }

/-- Reads the given streams; then leaves the loop or goes back to its head. -/
def drainThen (state : State) (streams : List Stream) (leave : Bool) : State :=
  match streams with
  | stream :: rest => { state with control := .drain stream rest leave }
  | [] => if leave then state.leaveLoop else { state with control := .head }

/-- `close(fd); open = false` -/
def closePipe (state : State) (stream : Stream) : State :=
  (state.setPipe stream { state.pipe stream with isOpen := false }).call [.close ⟨stream, false⟩]

/-- The child ends, and its write ends with it. -/
def childEnds (state : State) (status : WaitStatus) : State :=
  { state with
    child := .zombie status
    stdoutPipe := { state.stdoutPipe with leaderEnd := false }
    stderrPipe := { state.stderrPipe with leaderEnd := false } }

/-- `kill(-pid, SIGKILL)`, which does not reach a child that is not in its group. -/
def killGroup (state : State) : State :=
  { state with kills := state.kills + 1, sigkill := state.sigkill || state.inGroup }

end State

/-- 64-bit arithmetic on clock readings. -/
def wrap64 (value : Int) : Int :=
  value.bmod UInt64.size

/-- `Clock::now() + spec.timeout`, if there is a limit. -/
def deadlineFrom (clock timeout : Int) : Option Int :=
  if 0 < timeout then some (wrap64 (clock + wrap64 (timeout * 1000000))) else none

/-- The wait given to `select`: the time left, in microseconds. -/
def waitFrom (clock : Int) (deadline : Option Int) : Option Nat :=
  deadline.map fun deadline => (max (wrap64 (deadline - clock)) 0 / 1000).toNat

/-- The exit code for a wait status. -/
def exitCodeOf : WaitStatus → Int
  | .exited code => code.toNat
  | .signaled signal => 128 + signal
  | .other => 1

/-- The status of a child whose `execv` failed. -/
def execFailure (error : Errno) : WaitStatus :=
  .exited (if error = .enoent then 127 else 126)

/-! ## The parent -/

variable (ctx : Context)

namespace State

def onPipe (state : State) (error : Option Errno) : Option State :=
  match state.control, error with
  | .stdoutPipe, none => some { state with control := .stderrPipe }
  | .stdoutPipe, some errno => some (state.fail (lit "pipe") (ctx.strerror errno))
  | .stderrPipe, none => some { state with control := .setNonBlocking }
  | .stderrPipe, some errno =>
      some ((state.fail (lit "pipe") (ctx.strerror errno)).call
        [.close ⟨.stdout, false⟩, .close ⟨.stdout, true⟩])
  | _, _ => none

/-- The results of these calls are not looked at. -/
def onFcntl (state : State) (stdoutSet stderrSet : Bool) : Option State :=
  match state.control with
  | .setNonBlocking =>
      some
        { state.call
            [.fcntl ⟨.stdout, false⟩, .fcntl ⟨.stderr, false⟩, .fcntl ⟨.stdout, false⟩,
              .fcntl ⟨.stderr, false⟩] with
          control := .fork
          stdoutPipe := { state.stdoutPipe with nonBlocking := stdoutSet }
          stderrPipe := { state.stderrPipe with nonBlocking := stderrSet } }
  | _ => none

def onFork (state : State) (error : Option Errno) : Option State :=
  match state.control, error with
  -- The child holds the write ends from here on; the parent closes its own in `arm`.
  | .fork, none =>
      some
        { state with
          control := .arm
          child := .starting .setpgid
          stdoutPipe := { state.stdoutPipe with leaderEnd := true }
          stderrPipe := { state.stderrPipe with leaderEnd := true } }
  | .fork, some errno =>
      some ((state.fail (lit "fork") (ctx.strerror errno)).call
        [.close ⟨.stdout, false⟩, .close ⟨.stdout, true⟩, .close ⟨.stderr, false⟩,
          .close ⟨.stderr, true⟩])
  | _, _ => none

/-- Up to the loop, and from its head to `select`. -/
def onProceed (state : State) : Option State :=
  match state.control with
  | .arm =>
      some
        { state.call [.close ⟨.stdout, true⟩, .close ⟨.stderr, true⟩] with
          control := .head
          deadline := deadlineFrom state.clock ctx.spec.timeout }
  | .head =>
      if state.openStreams = [] then some state.leaveLoop
      else
        some
          { state.call (state.openStreams.map (.select ⟨·, false⟩)) with
            control := .select (waitFrom state.clock state.deadline) state.clock }
  | _ => none

/-- `select` reports the open pipes that are readable, if there are any. -/
def onSelectReady (state : State) : Option State :=
  match state.control with
  | .select _ _ =>
      if state.readyStreams = [] then none else some (state.drainThen state.readyStreams false)
  | _ => none

/-- `select` returns 0 when its time is up and no open pipe is readable. -/
def onSelectTimedOut (state : State) : Option State :=
  match state.control with
  | .select (some micros) since =>
      -- The group is killed first, then what is left in the pipes is read.
      if state.readyStreams = [] ∧ since + micros * 1000 ≤ state.clock then
        some
          ({ state.killGroup with result.timedOut := true }.drainThen state.openStreams true)
      else none
  | _ => none

def onSelectFailed (state : State) (error : Errno) : Option State :=
  match state.control with
  | .select _ _ =>
      if error = .eintr then some { state with control := .head }
      else
        some { state with
          result.error := lit "select failed: " ++ ctx.strerror error }.leaveLoop
  | _ => none

/-- `read` takes at most 4096 of the bytes that are there. -/
def onRead (state : State) (count : Nat) : Option State :=
  match state.control with
  | .drain stream _ _ =>
      let pipe := state.pipe stream
      if 1 ≤ count ∧ count ≤ 4096 ∧ count ≤ pipe.buffer.length then
        some
          (((state.append stream (pipe.buffer.take count)).setPipe stream
            { pipe with buffer := pipe.buffer.drop count }).call [.read ⟨stream, false⟩])
      else none
  | _ => none

/-- A pipe is at its end when it is empty and no process holds a write end. -/
def onReadEof (state : State) : Option State :=
  match state.control with
  | .drain stream rest leave =>
      if (state.pipe stream).buffer = [] ∧ (state.pipe stream).hasWriter = false then
        some (((state.call [.read ⟨stream, false⟩]).closePipe stream).drainThen rest leave)
      else none
  | _ => none

/-- `EAGAIN` says that a non-blocking pipe is empty and has writers. -/
def onReadFailed (state : State) (error : Errno) : Option State :=
  match state.control with
  | .drain stream rest leave =>
      let state := state.call [.read ⟨stream, false⟩]
      match error with
      -- The same `read` again.
      | .eintr => some state
      | .eagain =>
          if (state.pipe stream).nonBlocking ∧ (state.pipe stream).readable = false then
            some (state.drainThen rest leave)
          else none
      | _ => some ((state.closePipe stream).drainThen rest leave)
  | _ => none

def onWaited (state : State) : Option State :=
  match state.control, state.child with
  | .waiting, .zombie status =>
      some
        { state with
          control := .returned
          child := .reaped status
          result.exitCode := exitCodeOf status }
  | _, _ => none

def onWaitFailed (state : State) (error : Errno) : Option State :=
  match state.control with
  | .waiting =>
      if error = .eintr then some state
      else some (state.fail (lit "waitpid") (ctx.strerror error))
  | _ => none

/-! ## The child -/

def onSetpgid (state : State) : Option State :=
  match state.child with
  | .starting .setpgid =>
      some
        { state with
          inGroup := true
          child := .starting (if ctx.spec.workingDirectory = [] then .exec else .chdir) }
  | _ => none

def onChdir (state : State) (error : Option Errno) : Option State :=
  match state.child, error with
  | .starting .chdir, none => some { state with child := .starting .exec }
  | .starting .chdir, some _ => some (state.childEnds (.exited 126))
  | _, _ => none

def onExec (state : State) (error : Option Errno) : Option State :=
  match state.child, error with
  | .starting .exec, none => some { state with child := .running }
  | .starting .exec, some errno => some (state.childEnds (execFailure errno))
  | _, _ => none

/-- A write that finds a reader. -/
def onWrite (state : State) (stream : Stream) (bytes : Bytes) : Option State :=
  let pipe := state.pipe stream
  if state.child = .running ∧ pipe.leaderEnd ∧ pipe.isOpen then
    some (state.setPipe stream { pipe with buffer := pipe.buffer ++ bytes })
  else none

def onClose (state : State) (stream : Stream) : Option State :=
  let pipe := state.pipe stream
  if state.child = .running ∧ pipe.leaderEnd then
    some (state.setPipe stream { pipe with leaderEnd := false })
  else none

def onLeaveGroup (state : State) : Option State :=
  if state.child = .running then some { state with inGroup := false } else none

def onExit (state : State) (code : UInt8) : Option State :=
  if state.child = .running then some (state.childEnds (.exited code)) else none

def onSignaled (state : State) (signal : Nat) : Option State :=
  if state.child.live ∧ 1 ≤ signal then some (state.childEnds (.signaled signal)) else none

def onInherit (state : State) (stream : Stream) : Option State :=
  let pipe := state.pipe stream
  if (state.child = .running ∧ pipe.leaderEnd) ∨ pipe.otherEnds ≠ 0 then
    some (state.setPipe stream { pipe with otherEnds := pipe.otherEnds + 1 })
  else none

def onOtherWrite (state : State) (stream : Stream) (bytes : Bytes) : Option State :=
  let pipe := state.pipe stream
  if pipe.otherEnds ≠ 0 ∧ pipe.isOpen then
    some (state.setPipe stream { pipe with buffer := pipe.buffer ++ bytes })
  else none

def onOtherClose (state : State) (stream : Stream) : Option State :=
  let pipe := state.pipe stream
  if pipe.otherEnds ≠ 0 then
    some (state.setPipe stream { pipe with otherEnds := pipe.otherEnds - 1 })
  else none

end State

/-! ## The system -/

/-- What an event does, if it can happen. -/
def step (state : State) : Event → Option State
  | .pipe error => state.onPipe ctx error
  | .fcntl stdoutSet stderrSet => state.onFcntl stdoutSet stderrSet
  | .fork error => state.onFork ctx error
  | .proceed => state.onProceed ctx
  | .selectReady => state.onSelectReady
  | .selectTimedOut => state.onSelectTimedOut
  | .selectFailed error => state.onSelectFailed ctx error
  | .read count => state.onRead count
  | .readEof => state.onReadEof
  | .readFailed error => state.onReadFailed error
  | .waited => state.onWaited
  | .waitFailed error => state.onWaitFailed ctx error
  | .setpgid => state.onSetpgid ctx
  | .chdir error => state.onChdir error
  | .exec error => state.onExec error
  | .write stream bytes => state.onWrite stream bytes
  | .close stream => state.onClose stream
  | .leaveGroup => state.onLeaveGroup
  | .exit code => state.onExit code
  | .signaled signal => state.onSignaled signal
  | .inherit stream => state.onInherit stream
  | .otherWrite stream bytes => state.onOtherWrite stream bytes
  | .otherClose stream => state.onOtherClose stream
  | .tick nanoseconds => some { state with clock := state.clock + nanoseconds }

/-- The state in which `RunProcess` is called, at some reading of the clock. -/
def initial (clock : Int) : State :=
  { clock := clock }

/-- The state after some events. -/
def runFrom (clock : Int) (events : List Event) : Option State :=
  Transition.run (step ctx) (initial clock) events

/-- `RunProcess` returns the result after these events. -/
def Returns (clock : Int) (events : List Event) (result : ProcessResult) : Prop :=
  ∃ final, runFrom ctx clock events = some final ∧ final.control = .returned ∧
    final.result = result

end Process

end RuntimeAnalyzer
