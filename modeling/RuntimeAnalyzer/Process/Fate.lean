import RuntimeAnalyzer.Process.Outcome

/-!
# The fate of the child

A run of the process forks one child at most, and ends it at most once. What is returned is the
fate of that child: it was reaped once and the exit code is that of its only end, or the error
names the call that failed (`returned_fate`).
-/

namespace RuntimeAnalyzer

namespace Process

variable {ctx : Context} {history : List Event} {state next : State} {event : Event}

/-! ## Errors -/

/-- A call before the child exists fails with this error. -/
inductive SetUpError (ctx : Context) : Event → Bytes → Prop
  | pipe (errno : Errno) :
      SetUpError ctx (.pipe (some errno)) (lit "pipe" ++ lit " failed: " ++ ctx.strerror errno)
  | fork (errno : Errno) :
      SetUpError ctx (.fork (some errno)) (lit "fork" ++ lit " failed: " ++ ctx.strerror errno)

theorem SetUpError.ne {error : Bytes} (h : SetUpError ctx event error) :
    event ≠ .fork none ∧ event ≠ .waited := by
  cases h <;> exact ⟨by simp, by simp⟩

/-- `select` never fails for good. -/
def Smooth (history : List Event) : Prop :=
  ∀ errno, .selectFailed errno ∈ history → errno = .eintr

/-- The error is empty, or that of the `select` that failed. -/
inductive SelectError (ctx : Context) (history : List Event) (error : Bytes) : Prop
  | smooth (hselect : Smooth history) (herror : error = [])
  | failed {errno : Errno} (herrno : errno ≠ .eintr) (hmem : .selectFailed errno ∈ history)
      (herror : error = lit "select failed: " ++ ctx.strerror errno)

theorem Smooth.concat (h : Smooth history)
    (hevent : ∀ errno, event = .selectFailed errno → errno = .eintr) :
    Smooth (history ++ [event]) := by
  intro errno hmem
  rcases List.mem_append.mp hmem with hmem | hmem
  · exact h errno hmem
  · exact hevent errno (List.mem_singleton.mp hmem).symm

theorem SelectError.concat {error : Bytes} (h : SelectError ctx history error)
    (hevent : ∀ errno, event = .selectFailed errno → errno = .eintr) :
    SelectError ctx (history ++ [event]) error := by
  cases h with
  | smooth hselect herror => exact .smooth (hselect.concat hevent) herror
  | failed herrno hmem herror => exact .failed herrno (List.mem_append_left _ hmem) herror

/-! ## What a step of the parent does to the child -/

/-- What a step of the parent does to the child and to the outcome of the run. -/
inductive Effect (ctx : Context) (state next : State) : Event → Prop
  | keeps {event : Event} (hfork : event ≠ .fork none) (hwaited : event ≠ .waited)
      (hselect : ∀ errno, event = .selectFailed errno → errno = .eintr)
      (hopen : state.control.phase ≠ .returned)
      (hphase : next.control.phase = state.control.phase ∨
        state.control.phase = .loop ∧ next.control.phase = .leaving)
      (hchild : next.child = state.child) (herror : next.result.error = state.result.error)
      (hexit : next.result.exitCode = state.result.exitCode) : Effect ctx state next event
  | setUpFails {event : Event} (hphase : state.control.phase = .setUp)
      (hnext : next.control.phase = .returned) (hchild : next.child = state.child)
      (herror : SetUpError ctx event next.result.error)
      (hexit : next.result.exitCode = state.result.exitCode) : Effect ctx state next event
  | forks (hphase : state.control.phase = .setUp) (hnext : next.control.phase = .loop)
      (hchild : next.child = .starting .setpgid)
      (herror : next.result.error = state.result.error)
      (hexit : next.result.exitCode = state.result.exitCode) : Effect ctx state next (.fork none)
  | selectFails {errno : Errno} (herrno : errno ≠ .eintr) (hphase : state.control.phase = .loop)
      (hnext : next.control.phase = .leaving) (hchild : next.child = state.child)
      (herror : next.result.error = lit "select failed: " ++ ctx.strerror errno)
      (hexit : next.result.exitCode = state.result.exitCode) :
      Effect ctx state next (.selectFailed errno)
  | reaps {status : WaitStatus} (hphase : state.control.phase = .leaving)
      (hnext : next.control.phase = .returned) (hzombie : state.child = .zombie status)
      (hchild : next.child = .reaped status) (herror : next.result.error = state.result.error)
      (hexit : next.result.exitCode = exitCodeOf status) : Effect ctx state next .waited
  | waitFails {errno : Errno} (herrno : errno ≠ .eintr) (hphase : state.control.phase = .leaving)
      (hnext : next.control.phase = .returned) (hchild : next.child = state.child)
      (herror : next.result.error = lit "waitpid" ++ lit " failed: " ++ ctx.strerror errno)
      (hexit : next.result.exitCode = state.result.exitCode) :
      Effect ctx state next (.waitFailed errno)

/-- A step in the set-up or from the loop to the loop or out of it that keeps the outcome. -/
theorem effect_of_keeps (hkeeps : Keeps state next) (hfork : event ≠ .fork none)
    (hwaited : event ≠ .waited) (hselect : ∀ errno, event = .selectFailed errno → errno = .eintr)
    (hopen : state.control.phase ≠ .returned)
    (hphase : next.control.phase = state.control.phase ∨
      state.control.phase = .loop ∧ next.control.phase = .leaving) :
    Effect ctx state next event :=
  .keeps hfork hwaited hselect hopen hphase hkeeps.child hkeeps.error hkeeps.exitCode

theorem effect_of_move (h : ParentMove ctx state event next) : Effect ctx state next event := by
  have hdrain : ∀ (leave : Bool) (rest : List Stream) (read : State), Keeps state read →
      (state.control.phase = if leave then .leaving else .loop) → event ≠ .fork none →
      event ≠ .waited → (∀ errno, event = .selectFailed errno → errno = .eintr) →
      Effect ctx state (read.drainThen rest leave) event := by
    intro leave rest read hkeeps hphase hfork hwaited hselect
    refine effect_of_keeps (hkeeps.trans (keeps_drain_then _ _ _)) hfork hwaited hselect ?_ ?_
    · rw [hphase]
      cases leave <;> simp
    · rw [phase_drain_then, hphase]
      exact .inl rfl
  cases h with
  | makesStdout hcontrol =>
      exact .keeps (by simp) (by simp) (by simp) (by simp [hcontrol, Control.phase])
        (.inl (by simp [hcontrol, Control.phase])) rfl rfl rfl
  | stdoutFails hcontrol =>
      exact .setUpFails (by rw [hcontrol]; rfl) rfl rfl (.pipe _) rfl
  | makesStderr hcontrol =>
      exact .keeps (by simp) (by simp) (by simp) (by simp [hcontrol, Control.phase])
        (.inl (by simp [hcontrol, Control.phase])) rfl rfl rfl
  | stderrFails hcontrol =>
      exact .setUpFails (by rw [hcontrol]; rfl) rfl rfl (.pipe _) rfl
  | setsNonBlocking hcontrol =>
      exact .keeps (by simp) (by simp) (by simp) (by simp [hcontrol, Control.phase])
        (.inl (by simp [hcontrol, Control.phase])) rfl rfl rfl
  | forks hcontrol => exact .forks (by rw [hcontrol]; rfl) rfl rfl rfl rfl
  | forkFails hcontrol =>
      exact .setUpFails (by rw [hcontrol]; rfl) rfl rfl (.fork _) rfl
  | arms hcontrol | selects hcontrol =>
      exact .keeps (by simp) (by simp) (by simp) (by simp [hcontrol, Control.phase])
        (.inl (by simp [hcontrol, Control.phase])) rfl rfl rfl
  | endsLoop hcontrol =>
      exact .keeps (by simp) (by simp) (by simp) (by simp [hcontrol, Control.phase])
        (.inr ⟨by rw [hcontrol]; rfl, rfl⟩) rfl rfl rfl
  | selectReady hcontrol =>
      exact hdrain false _ state ⟨rfl, rfl, rfl, rfl, rfl, rfl, rfl⟩ (by rw [hcontrol]; rfl)
        (by simp) (by simp) (by simp)
  | selectTimesOut hcontrol =>
      have hkeeps := keeps_drain_then { state.killGroup with result.timedOut := true }
        state.openStreams true
      refine .keeps (by simp) (by simp) (by simp) (by simp [hcontrol, Control.phase])
        (.inr ⟨by rw [hcontrol]; rfl, ?_⟩) hkeeps.child hkeeps.error hkeeps.exitCode
      rw [phase_drain_then]
      rfl
  | selectRetries hcontrol =>
      exact .keeps (by simp) (by simp) (by simp) (by simp [hcontrol, Control.phase])
        (.inl (by simp [hcontrol, Control.phase])) rfl rfl rfl
  | selectFails hcontrol herrno =>
      exact .selectFails herrno (by rw [hcontrol]; rfl) rfl rfl rfl rfl
  | @reads count stream rest leave hcontrol =>
      have hkeeps := ((keeps_append state stream ((state.pipe stream).buffer.take count)).trans
        (keeps_set_pipe _ stream { state.pipe stream with
          buffer := (state.pipe stream).buffer.drop count })).trans
            (keeps_call _ [.read ⟨stream, false⟩])
      refine effect_of_keeps hkeeps (by simp) (by simp) (by simp) ?_ (.inl ?_)
      · rw [hcontrol, phase_drain]
        cases leave <;> simp
      · show ((state.append stream _).setPipe stream _).control.phase = _
        rw [control_set_pipe, control_append]
  | @readsEof stream rest leave hcontrol | @readFails stream rest leave _ hcontrol =>
      exact hdrain leave rest _ ((keeps_call _ _).trans (keeps_close_pipe _ _))
        (by rw [hcontrol, phase_drain]) (by simp) (by simp) (by simp)
  | @readAgain stream rest leave hcontrol =>
      exact hdrain leave rest _ (keeps_call _ _) (by rw [hcontrol, phase_drain]) (by simp)
        (by simp) (by simp)
  | @readRetries stream rest leave hcontrol =>
      refine effect_of_keeps (keeps_call _ _) (by simp) (by simp) (by simp) ?_ (.inl rfl)
      rw [hcontrol, phase_drain]
      cases leave <;> simp
  | waits hcontrol hchild => exact .reaps (by rw [hcontrol]; rfl) rfl hchild rfl rfl rfl
  | waitRetries hcontrol =>
      exact .keeps (by simp) (by simp) (by simp) (by simp [hcontrol, Control.phase]) (.inl rfl)
        rfl rfl rfl
  | waitFails hcontrol herrno =>
      exact .waitFails herrno (by rw [hcontrol]; rfl) rfl rfl rfl rfl

/-! ## The life of the child -/

/-- The statuses that ended the child. -/
def endings (history : List Event) : List WaitStatus :=
  history.filterMap Event.endStatus

theorem endings_concat :
    endings (history ++ [event]) = endings history ++ event.endStatus.toList := by
  unfold endings
  rw [List.filterMap_append]
  cases hend : event.endStatus <;> simp [hend]

/-- How often the child was forked, ended and reaped. -/
inductive Lived (history : List Event) : Child → Prop
  | absent (hforked : history.count (.fork none) = 0) (hended : endings history = [])
      (hwaited : history.count .waited = 0) : Lived history .absent
  | live {child : Child} (hlive : child.live = true) (hforked : history.count (.fork none) = 1)
      (hended : endings history = []) (hwaited : history.count .waited = 0) : Lived history child
  | zombie {status : WaitStatus} (hforked : history.count (.fork none) = 1)
      (hended : endings history = [status]) (hwaited : history.count .waited = 0) :
      Lived history (.zombie status)
  | reaped {status : WaitStatus} (hforked : history.count (.fork none) = 1)
      (hended : endings history = [status]) (hwaited : history.count .waited = 1) :
      Lived history (.reaped status)

/-- The child is there and has not been reaped. -/
def Unreaped (child : Child) : Prop :=
  child ≠ .absent ∧ ∀ status, child ≠ .reaped status

theorem count_concat_of_ne {other : Event} (h : event ≠ other) :
    (history ++ [event]).count other = history.count other := by
  simp [List.count_append, h]

/-- What neither forks nor ends nor reaps the child leaves its counts. -/
theorem Lived.concat {child : Child} (h : Lived history child) (hfork : event ≠ .fork none)
    (hwaited : event ≠ .waited) (hend : event.endStatus = none) :
    Lived (history ++ [event]) child := by
  have hendings : endings (history ++ [event]) = endings history := by
    rw [endings_concat, hend]
    simp
  cases h with
  | absent h₁ h₂ h₃ =>
      exact .absent (by rw [count_concat_of_ne hfork, h₁]) (by rw [hendings, h₂])
        (by rw [count_concat_of_ne hwaited, h₃])
  | live hlive h₁ h₂ h₃ =>
      exact .live hlive (by rw [count_concat_of_ne hfork, h₁]) (by rw [hendings, h₂])
        (by rw [count_concat_of_ne hwaited, h₃])
  | zombie h₁ h₂ h₃ =>
      exact .zombie (by rw [count_concat_of_ne hfork, h₁]) (by rw [hendings, h₂])
        (by rw [count_concat_of_ne hwaited, h₃])
  | reaped h₁ h₂ h₃ =>
      exact .reaped (by rw [count_concat_of_ne hfork, h₁]) (by rw [hendings, h₂])
        (by rw [count_concat_of_ne hwaited, h₃])

/-- The counts of a live child, however far it has come. -/
theorem Lived.of_live {child : Child} (h : Lived history child) (hlive : child.live = true) :
    history.count (.fork none) = 1 ∧ endings history = [] ∧ history.count .waited = 0 := by
  cases h with
  | live _ h₁ h₂ h₃ => exact ⟨h₁, h₂, h₃⟩
  | absent | zombie | reaped => cases hlive

theorem ne_of_child (h : event.ofChild = true) : event ≠ .fork none ∧ event ≠ .waited := by
  constructor <;> rintro rfl <;> cases h

theorem lived_child_step (hlived : Lived history state.child) (hevent : event.ofChild = true)
    (h : ChildStep state next event) : Lived (history ++ [event]) next.child := by
  obtain ⟨hfork, hwaited⟩ := ne_of_child hevent
  cases hend : event.endStatus with
  | some status =>
      obtain ⟨hlive, hzombie⟩ := h.ended status hend
      obtain ⟨hforked, hended, hreaped⟩ := hlived.of_live hlive
      rw [hzombie]
      exact .zombie (by rw [count_concat_of_ne hfork, hforked])
        (by rw [endings_concat, hended, hend]; rfl) (by rw [count_concat_of_ne hwaited, hreaped])
  | none =>
      rcases h.unended hend with hsame | ⟨hlive, hnext⟩
      · rw [hsame]
        exact hlived.concat hfork hwaited hend
      · obtain ⟨hforked, hended, hreaped⟩ := hlived.of_live hlive
        exact .live hnext (by rw [count_concat_of_ne hfork, hforked])
          (by rw [endings_concat, hended, hend]; rfl) (by rw [count_concat_of_ne hwaited, hreaped])

theorem lived_forks (hlived : Lived history .absent) :
    Lived (history ++ [.fork none]) (.starting .setpgid) := by
  cases hlived with
  | absent hforked hended hwaited =>
      exact .live rfl (by simp [List.count_append, hforked])
        (by rw [endings_concat, hended]; rfl) (by rw [count_concat_of_ne (by simp), hwaited])
  | live hlive => cases hlive

theorem lived_reaps {status : WaitStatus} (hlived : Lived history (.zombie status)) :
    Lived (history ++ [.waited]) (.reaped status) := by
  cases hlived with
  | zombie hforked hended hwaited =>
      exact .reaped (by rw [count_concat_of_ne (by simp), hforked])
        (by rw [endings_concat, hended]; rfl) (by simp [List.count_append, hwaited])
  | live hlive => cases hlive

theorem ChildStep.unreaped (h : ChildStep state next event) (hchild : Unreaped state.child) :
    Unreaped next.child := by
  cases hend : event.endStatus with
  | some status =>
      rw [(h.ended status hend).2]
      exact ⟨by simp, by simp⟩
  | none =>
      rcases h.unended hend with hsame | ⟨_, hlive⟩
      · rw [hsame]
        exact hchild
      · constructor
        · rintro habsent
          simp [habsent, Child.live] at hlive
        · rintro status hreaped
          simp [hreaped, Child.live] at hlive

theorem ChildStep.reaped {status : WaitStatus} (h : ChildStep state next event)
    (hchild : state.child = .reaped status) : next.child = .reaped status := by
  cases hend : event.endStatus with
  | some last => simpa [hchild, Child.live] using (h.ended last hend).1
  | none => simpa [hchild, Child.live] using h.unended hend

/-! ## Where the parent stands -/

/-- What the parent has made of the events up to now. -/
inductive Stands (ctx : Context) (history : List Event) (state : State) : Prop
  | setUp (hphase : state.control.phase = .setUp) (hchild : state.child = .absent)
      (hselect : Smooth history) (herror : state.result.error = [])
      (hexit : state.result.exitCode = 1)
  | loop (hphase : state.control.phase = .loop) (hchild : Unreaped state.child)
      (hselect : Smooth history) (herror : state.result.error = [])
      (hexit : state.result.exitCode = 1)
  | leaving (hphase : state.control.phase = .leaving) (hchild : Unreaped state.child)
      (hselect : SelectError ctx history state.result.error) (hexit : state.result.exitCode = 1)
  | notForked {failed : Event} (hphase : state.control.phase = .returned)
      (hchild : state.child = .absent) (hmem : failed ∈ history)
      (herror : SetUpError ctx failed state.result.error) (hexit : state.result.exitCode = 1)
  | reaped {status : WaitStatus} (hphase : state.control.phase = .returned)
      (hchild : state.child = .reaped status)
      (hselect : SelectError ctx history state.result.error)
      (hexit : state.result.exitCode = exitCodeOf status)
  | notReaped {errno : Errno} (hphase : state.control.phase = .returned)
      (hchild : Unreaped state.child) (herrno : errno ≠ .eintr) (hmem : .waitFailed errno ∈ history)
      (herror : state.result.error = lit "waitpid" ++ lit " failed: " ++ ctx.strerror errno)
      (hexit : state.result.exitCode = 1)

theorem ne_select_failed_of_child (h : event.ofChild = true) (errno : Errno) :
    event = .selectFailed errno → errno = .eintr := by
  rintro rfl
  cases h

theorem stands_child_step (hstands : Stands ctx history state) (hevent : event.ofChild = true)
    (h : ChildStep state next event) : Stands ctx (history ++ [event]) next := by
  have hselects := ne_select_failed_of_child hevent
  cases hstands with
  | setUp hphase hchild hselect herror hexit =>
      exact .setUp (by rw [h.control, hphase]) (h.absent hchild).1 (hselect.concat hselects)
        (by rw [h.result, herror]) (by rw [h.result, hexit])
  | loop hphase hchild hselect herror hexit =>
      exact .loop (by rw [h.control, hphase]) (h.unreaped hchild) (hselect.concat hselects)
        (by rw [h.result, herror]) (by rw [h.result, hexit])
  | leaving hphase hchild hselect hexit =>
      exact .leaving (by rw [h.control, hphase]) (h.unreaped hchild)
        (by rw [h.result]; exact hselect.concat hselects) (by rw [h.result, hexit])
  | notForked hphase hchild hmem herror hexit =>
      exact .notForked (by rw [h.control, hphase]) (h.absent hchild).1
        (List.mem_append_left _ hmem) (by rw [h.result]; exact herror) (by rw [h.result, hexit])
  | reaped hphase hchild hselect hexit =>
      exact .reaped (by rw [h.control, hphase]) (h.reaped hchild)
        (by rw [h.result]; exact hselect.concat hselects) (by rw [h.result, hexit])
  | notReaped hphase hchild herrno hmem herror hexit =>
      exact .notReaped (by rw [h.control, hphase]) (h.unreaped hchild) herrno
        (List.mem_append_left _ hmem) (by rw [h.result, herror]) (by rw [h.result, hexit])

/-- A step of the parent that keeps the outcome. -/
theorem stands_keeps (hstands : Stands ctx history state)
    (hselects : ∀ errno, event = .selectFailed errno → errno = .eintr)
    (hopen : state.control.phase ≠ .returned)
    (hphase : next.control.phase = state.control.phase ∨
      state.control.phase = .loop ∧ next.control.phase = .leaving)
    (hchild : next.child = state.child) (herror : next.result.error = state.result.error)
    (hexit : next.result.exitCode = state.result.exitCode) :
    Stands ctx (history ++ [event]) next := by
  cases hstands with
  | setUp hbefore habsent hselect hempty hcode =>
      have hsame : next.control.phase = .setUp := by simpa [hbefore] using hphase
      exact .setUp hsame (by rw [hchild, habsent]) (hselect.concat hselects)
        (by rw [herror, hempty]) (by rw [hexit, hcode])
  | loop hbefore hunreaped hselect hempty hcode =>
      have hafter : next.control.phase = .loop ∨ next.control.phase = .leaving := by
        simpa [hbefore] using hphase
      rcases hafter with hloop | hleaving
      · exact .loop hloop (by rw [hchild]; exact hunreaped) (hselect.concat hselects)
          (by rw [herror, hempty]) (by rw [hexit, hcode])
      · exact .leaving hleaving (by rw [hchild]; exact hunreaped)
          (.smooth (hselect.concat hselects) (by rw [herror, hempty])) (by rw [hexit, hcode])
  | leaving hbefore hunreaped hselect hcode =>
      have hsame : next.control.phase = .leaving := by simpa [hbefore] using hphase
      exact .leaving hsame (by rw [hchild]; exact hunreaped)
        (by rw [herror]; exact hselect.concat hselects) (by rw [hexit, hcode])
  | notForked hbefore | reaped hbefore | notReaped hbefore => exact absurd hbefore hopen

/-- In the set-up there is no child, no error and no exit code yet. -/
theorem Stands.in_set_up (h : Stands ctx history state) (hphase : state.control.phase = .setUp) :
    state.child = .absent ∧ Smooth history ∧ state.result.error = [] ∧
      state.result.exitCode = 1 := by
  cases h with
  | setUp _ hchild hselect herror hexit => exact ⟨hchild, hselect, herror, hexit⟩
  | loop h | leaving h | notForked h | reaped h | notReaped h => simp [hphase] at h

theorem Stands.in_loop (h : Stands ctx history state) (hphase : state.control.phase = .loop) :
    Unreaped state.child ∧ state.result.exitCode = 1 := by
  cases h with
  | loop _ hchild _ _ hexit => exact ⟨hchild, hexit⟩
  | setUp h | leaving h | notForked h | reaped h | notReaped h => simp [hphase] at h

theorem Stands.in_leaving (h : Stands ctx history state)
    (hphase : state.control.phase = .leaving) :
    Unreaped state.child ∧ SelectError ctx history state.result.error ∧
      state.result.exitCode = 1 := by
  cases h with
  | leaving _ hchild hselect hexit => exact ⟨hchild, hselect, hexit⟩
  | setUp h | loop h | notForked h | reaped h | notReaped h => simp [hphase] at h

theorem stands_parent_step (hstands : Stands ctx history state)
    (h : Effect ctx state next event) : Stands ctx (history ++ [event]) next := by
  cases h with
  | keeps _ _ hselect hopen hphase hchild herror hexit =>
      exact stands_keeps hstands hselect hopen hphase hchild herror hexit
  | setUpFails hphase hnext hchild herror hexit =>
      obtain ⟨habsent, _, _, hcode⟩ := hstands.in_set_up hphase
      exact .notForked hnext (by rw [hchild, habsent]) (by simp) herror (by rw [hexit, hcode])
  | forks hphase hnext hchild herror hexit =>
      obtain ⟨_, hselect, hempty, hcode⟩ := hstands.in_set_up hphase
      exact .loop hnext (by rw [hchild]; exact ⟨by simp, by simp⟩) (hselect.concat (by simp))
        (by rw [herror, hempty]) (by rw [hexit, hcode])
  | selectFails herrno hphase hnext hchild herror hexit =>
      obtain ⟨hunreaped, hcode⟩ := hstands.in_loop hphase
      exact .leaving hnext (by rw [hchild]; exact hunreaped) (.failed herrno (by simp) herror)
        (by rw [hexit, hcode])
  | reaps hphase hnext _ hchild herror hexit =>
      obtain ⟨_, hselect, _⟩ := hstands.in_leaving hphase
      exact .reaped hnext hchild (by rw [herror]; exact hselect.concat (by simp)) hexit
  | waitFails herrno hphase hnext hchild herror hexit =>
      obtain ⟨hunreaped, _, hcode⟩ := hstands.in_leaving hphase
      exact .notReaped hnext (by rw [hchild]; exact hunreaped) herrno (by simp) herror
        (by rw [hexit, hcode])

theorem lived_parent_step (hlived : Lived history state.child) (hstands : Stands ctx history state)
    (hend : event.endStatus = none) (h : Effect ctx state next event) :
    Lived (history ++ [event]) next.child := by
  cases h with
  | keeps hfork hwaited _ _ _ hchild =>
      rw [hchild]
      exact hlived.concat hfork hwaited hend
  | setUpFails _ _ hchild herror =>
      obtain ⟨hfork, hwaited⟩ := herror.ne
      rw [hchild]
      exact hlived.concat hfork hwaited hend
  | forks hphase _ hchild =>
      rw [(hstands.in_set_up hphase).1] at hlived
      rw [hchild]
      exact lived_forks hlived
  | selectFails _ _ _ hchild | waitFails _ _ _ hchild =>
      rw [hchild]
      exact hlived.concat (by simp) (by simp) rfl
  | reaps _ _ hzombie hchild =>
      rw [hzombie] at hlived
      rw [hchild]
      exact lived_reaps hlived

/-! ## Runs -/

/-- The child's life and the parent's stand, kept together. -/
structure Follows (ctx : Context) (history : List Event) (state : State) : Prop where
  lived : Lived history state.child
  stands : Stands ctx history state

theorem follows_initial (ctx : Context) (clock : Int) : Follows ctx [] (initial clock) where
  lived := .absent rfl rfl rfl
  stands := .setUp rfl rfl (by simp [Smooth]) rfl rfl

theorem follows_step (h : Follows ctx history state) (hstep : step ctx state event = some next) :
    Follows ctx (history ++ [event]) next := by
  cases hevent : event.ofChild with
  | true =>
      have hchild := child_step hstep hevent
      exact ⟨lived_child_step h.lived hevent hchild, stands_child_step h.stands hevent hchild⟩
  | false =>
      have heffect := effect_of_move (parent_move hstep hevent)
      exact ⟨lived_parent_step h.lived h.stands (end_status_of_parent hevent) heffect,
        stands_parent_step h.stands heffect⟩

theorem follows_run {clock : Int} {events : List Event} {final : State}
    (h : runFrom ctx clock events = some final) : Follows ctx events final :=
  Transition.run_history follows_step (follows_initial ctx clock) h

/-! ## What is returned -/

/-- What became of the child by the time the result is returned. -/
inductive Fate (ctx : Context) (events : List Event) (result : ProcessResult) : Prop
  /-- A call before it failed, and there was no child. -/
  | notForked {failed : Event} (hmem : failed ∈ events)
      (herror : SetUpError ctx failed result.error) (hexit : result.exitCode = 1)
      (hforked : events.count (.fork none) = 0) (hended : endings events = [])
      (hwaited : events.count .waited = 0)
  /-- It ended once and was reaped once, with that status. -/
  | reaped {status : WaitStatus} (hforked : events.count (.fork none) = 1)
      (hended : endings events = [status]) (hwaited : events.count .waited = 1)
      (hexit : result.exitCode = exitCodeOf status)
      (hselect : SelectError ctx events result.error)
  /-- `waitpid` failed, and it was left as it was. -/
  | notReaped {errno : Errno} (herrno : errno ≠ .eintr) (hmem : .waitFailed errno ∈ events)
      (herror : result.error = lit "waitpid" ++ lit " failed: " ++ ctx.strerror errno)
      (hexit : result.exitCode = 1) (hforked : events.count (.fork none) = 1)
      (hended : (endings events).length ≤ 1) (hwaited : events.count .waited = 0)

/-- The counts of a child that was not reaped. -/
theorem Lived.of_unreaped {child : Child} (h : Lived history child) (hchild : Unreaped child) :
    history.count (.fork none) = 1 ∧ (endings history).length ≤ 1 ∧ history.count .waited = 0 := by
  cases h with
  | absent => exact absurd rfl hchild.1
  | live _ hforked hended hwaited => exact ⟨hforked, by simp [hended], hwaited⟩
  | zombie hforked hended hwaited => exact ⟨hforked, by simp [hended], hwaited⟩
  | reaped => exact absurd rfl (hchild.2 _)

/-- Whatever the schedule, one child is forked at most, ended at most once and reaped at most
once, and the result is what became of it. -/
theorem returned_fate {clock : Int} {events : List Event} {result : ProcessResult}
    (h : Returns ctx clock events result) : Fate ctx events result := by
  obtain ⟨final, hrun, hreturned, rfl⟩ := h
  obtain ⟨hlived, hstands⟩ := follows_run hrun
  have hphase : final.control.phase = .returned := by rw [hreturned]; rfl
  cases hstands with
  | setUp h | loop h | leaving h => simp [hphase] at h
  | notForked _ hchild hmem herror hexit =>
      rw [hchild] at hlived
      cases hlived with
      | absent hforked hended hwaited => exact .notForked hmem herror hexit hforked hended hwaited
      | live hlive => cases hlive
  | reaped _ hchild hselect hexit =>
      rw [hchild] at hlived
      cases hlived with
      | reaped hforked hended hwaited => exact .reaped hforked hended hwaited hexit hselect
      | live hlive => cases hlive
  | notReaped _ hchild herrno hmem herror hexit =>
      obtain ⟨hforked, hended, hwaited⟩ := hlived.of_unreaped hchild
      exact .notReaped herrno hmem herror hexit hforked hended hwaited

/-- `select` fails, the program exits with 3 all the same, and a first `waitpid` is interrupted. -/
def selectsBadly : List Event :=
  [.pipe none, .pipe none, .fcntl true true, .fork none, .proceed, .setpgid, .exec none, .proceed,
    .selectFailed (.other 9), .waitFailed .eintr, .exit 3, .waited]

/-- The error is returned beside the exit code of the program. -/
theorem returned_fate_select_failed :
    Fate { spec := {}, strerror := fun _ => lit "Bad file descriptor" } selectsBadly
      { exitCode := 3, error := lit "select failed: Bad file descriptor" } := by
  have hreturns : Returns { spec := {}, strerror := fun _ => lit "Bad file descriptor" } 0
      selectsBadly { exitCode := 3, error := lit "select failed: Bad file descriptor" } :=
    ⟨_, rfl, by decide, by decide⟩
  exact returned_fate hreturns

end Process

end RuntimeAnalyzer
