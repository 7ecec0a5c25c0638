import StackEditor.Execution.Controller

/-!
# The commands of a controller

Every part of the controller is one update of its fields (`setState_eq`, `finish_eq` and so on),
whatever the evaluator and the scheduler. From these it follows what each command leads to, and what
holds between any two commands (`Steady.obey`): there is a step to wait for exactly while the run is
running, and a token exactly while there is a run. `Turn` says what becomes of the step that is
waited for.
-/

namespace StackEditor

/-- What can be asked of a controller. -/
inductive ControllerCommand where
  | run (source : String) (breakpoints : List Breakpoint)
  | pause
  | step (source : String) (breakpoints : List Breakpoint)
  | stop
  | onTaskDue (task : TaskId)

namespace Controller

variable {ε σ : Type}

/-! ## Parts of commands -/

/-- The event of a change of state, if it is one. -/
def stateEvents (old new : ExecutionState) : List ControllerEvent :=
  if old = new then [] else [.stateChanged new]

/-- A change of state appends its announcement and touches nothing else. -/
theorem setState_eq (c : Controller ε σ) (s : ExecutionState) :
    c.setState s = { c with state := s, events := c.events ++ stateEvents c.state s } := by
  unfold setState stateEvents
  split
  · next h =>
    subst h
    simp
  · rfl

section
variable [StepScheduler σ]

/-- The scheduler after the step that is waited for has been revoked. -/
def revoked (c : Controller ε σ) : σ :=
  match c.pending with
  | none => c.scheduler
  | some task => (StepScheduler.cancel c.scheduler task).2

/-- Without a pending task there is nothing to revoke. -/
theorem revoked_of_eq_none {c : Controller ε σ} (h : c.pending = none) :
    c.revoked = c.scheduler := by
  rw [revoked, h]

/-- A pending task is revoked by cancelling it. -/
theorem revoked_of_eq_some {c : Controller ε σ} {task : TaskId} (h : c.pending = some task) :
    c.revoked = (StepScheduler.cancel c.scheduler task).2 := by
  rw [revoked, h]

/-- Cancelling the pending task changes the scheduler and forgets the task. -/
theorem cancelPending_eq (c : Controller ε σ) :
    c.cancelPending = { c with scheduler := c.revoked, pending := none } := by
  obtain ⟨_, _, _, _, pending, _, _, _, _⟩ := c
  cases pending <;> rfl

/-- The end of a run in one record: no task, no token, no position, idle, and the events in their
order. -/
theorem finish_eq (c : Controller ε σ) (outcome : RunOutcome) :
    c.finish outcome = { c with
      scheduler := c.revoked, pending := none, cancel := none, position := none, state := .idle,
      events := c.events ++ [.positionChanged none] ++ stateEvents c.state .idle ++
        [.runFinished outcome] } := by
  simp only [finish, cancelPending_eq, hidePosition, emit, setState_eq]

/-- A running run is paused; otherwise nothing happens. -/
theorem pause_eq (c : Controller ε σ) :
    c.pause = if c.state = .running then (true, { c with
        scheduler := c.revoked, pending := none, state := .paused,
        events := c.events ++ stateEvents c.state .paused ++ [.positionChanged c.position] })
      else (false, c) := by
  unfold pause
  split
  · simp only [cancelPending_eq, setState_eq, showPosition, emit]
  · rfl

variable [Evaluator ε]

/-- A step either ends the run, or leaves all but evaluator and position as it was. -/
theorem advance_cases (c : Controller ε σ) :
    (∃ evaluator position outcome,
        c.advance = (.finished, ({ c with evaluator, position } : Controller ε σ).finish outcome)) ∨
      ∃ evaluator position p, p ≠ .finished ∧ c.advance = (p, { c with evaluator, position }) := by
  unfold advance
  split
  · next e evaluator _ => exact .inl ⟨evaluator, c.position, .failed e, rfl⟩
  · next r evaluator _ =>
    dsimp only
    split
    · exact .inl ⟨evaluator, _, .completed, rfl⟩
    split
    · exact .inr ⟨evaluator, _, .hit, by simp, rfl⟩
    · exact .inr ⟨evaluator, _, .goesOn, by simp, rfl⟩

/-- The evaluator after the token of the run has been tripped. -/
def tripped (c : Controller ε σ) : ε :=
  match c.cancel with
  | none => c.evaluator
  | some token => Evaluator.trip c.evaluator token

omit [StepScheduler σ] in
/-- Tripping the token changes the evaluator and forgets the token. -/
theorem tripToken_eq (c : Controller ε σ) :
    c.tripToken = { c with evaluator := c.tripped, cancel := none } := by
  obtain ⟨_, _, _, _, _, cancel, _, _, _⟩ := c
  cases cancel <;> rfl

/-- A run is abandoned; otherwise nothing happens. -/
theorem stop_eq (c : Controller ε σ) :
    c.stop = if c.state.isActive then (true, { c with
        evaluator := c.tripped, scheduler := c.revoked, pending := none, cancel := none,
        position := none, state := .idle,
        events := c.events ++ [.positionChanged none] ++ stateEvents c.state .stopped ++
          stateEvents .stopped .idle ++ [.runFinished .cancelled] })
      else (false, c) := by
  unfold stop
  split
  · simp only [cancelPending_eq, tripToken_eq, hidePosition, emit, setState_eq]
    rfl
  · rfl

/-- The controller after a command, and whether the state allowed it. -/
def obey (c : Controller ε σ) : ControllerCommand → Bool × Controller ε σ
  | .run source bs => c.run source bs
  | .pause => c.pause
  | .step source bs => c.step source bs
  | .stop => c.stop
  | .onTaskDue task => c.onTaskDue task

end

/-! ## Between commands -/

/-- What holds between any two commands: the controller is never seen stopped; it waits for a step
exactly while the run is running; there is a token exactly while there is a run; and without a run
there is no position. -/
structure Steady (c : Controller ε σ) : Prop where
  state : c.state ≠ .stopped
  pending : c.pending.isSome ↔ c.state = .running
  cancel : c.cancel.isSome ↔ c.state = .running ∨ c.state = .paused
  position : c.state = .idle → c.position = none

/-- A new controller is steady. -/
theorem steady_new (evaluator : ε) (scheduler : σ) (options : ControllerOptions) :
    (new evaluator scheduler options).Steady :=
  ⟨by simp [new], by simp [new], by simp [new], fun _ => rfl⟩

/-- Schedulers do not count. -/
theorem Steady.withScheduler {c : Controller ε σ} (h : c.Steady) (scheduler : σ) :
    Steady { c with scheduler } :=
  ⟨h.state, h.pending, h.cancel, h.position⟩

/-- The controller is steady, and its events have been taken. -/
structure Quiet (c : Controller ε σ) : Prop where
  steady : c.Steady
  events : c.events = []

/-- A steady controller whose events were taken is quiet. -/
theorem Steady.quiet {c : Controller ε σ} (h : c.Steady) : c.takeEvents.2.Quiet :=
  ⟨⟨h.state, h.pending, h.cancel, h.position⟩, rfl⟩

variable [StepScheduler σ] [Evaluator ε] {c : Controller ε σ}

omit [Evaluator ε] in
/-- A run that has ended leaves a steady controller. -/
theorem steady_finish (c : Controller ε σ) (outcome : RunOutcome) : (c.finish outcome).Steady := by
  rw [finish_eq]
  exact ⟨by simp, by simp, by simp, fun _ => rfl⟩

/-- A step that is taken with nothing to wait for is followed by a pause, or by the end of the
run. -/
theorem steady_stepAndPause (hpending : c.pending = none) (hcancel : c.cancel.isSome) :
    c.stepAndPause.Steady := by
  unfold stepAndPause
  rcases c.advance_cases with ⟨e, p, outcome, h⟩ | ⟨e, p, progress, hne, h⟩
  · rw [h]
    exact steady_finish _ outcome
  · rw [h]
    cases progress with
    | finished => exact absurd rfl hne
    | goesOn | hit =>
      simp only [setState_eq, showPosition, emit]
      exact ⟨by simp, by simp [hpending], by simpa using hcancel, by simp⟩

omit [Evaluator ε] in
/-- A run that is running waits for the step that is scheduled. -/
theorem steady_scheduleNext (hstate : c.state = .running) (hcancel : c.cancel.isSome) :
    c.scheduleNext.Steady := by
  unfold scheduleNext
  exact ⟨by simp [hstate], by simp [hstate], by simpa [hstate] using hcancel, by simp [hstate]⟩

/-- The command to run keeps the controller steady. -/
theorem Steady.run (h : c.Steady) (source : String) (bs : List Breakpoint) :
    (c.run source bs).2.Steady := by
  unfold Controller.run
  split
  · refine steady_scheduleNext ?_ ?_ <;> simp [setState_eq, start]
  · next hpaused =>
    refine steady_scheduleNext ?_ ?_
    · simp [setState_eq]
    · simpa [setState_eq, hidePosition, emit, updateBreakpoints] using h.cancel.2 (.inr hpaused)
  · exact h

omit [Evaluator ε] in
/-- The command to pause keeps the controller steady. -/
theorem Steady.pause (h : c.Steady) : c.pause.2.Steady := by
  rw [pause_eq]
  split
  · next hrunning => exact ⟨by simp, by simp, by simpa using h.cancel.2 (.inl hrunning), by simp⟩
  · exact h

omit [StepScheduler σ] [Evaluator ε] in
/-- Unless the run is running, there is no step to wait for. -/
theorem Steady.pending_eq_none (h : c.Steady) (hstate : c.state ≠ .running) : c.pending = none :=
  Option.not_isSome_iff_eq_none.1 fun hsome => hstate (h.pending.1 hsome)

/-- The command to take one step keeps the controller steady. -/
theorem Steady.step (h : c.Steady) (source : String) (bs : List Breakpoint) :
    (c.step source bs).2.Steady := by
  unfold Controller.step
  split
  · next hidle => exact steady_stepAndPause (h.pending_eq_none (by simp [hidle])) rfl
  · next hpaused =>
    exact steady_stepAndPause (h.pending_eq_none (by simp [hpaused])) (h.cancel.2 (.inr hpaused))
  · exact h

/-- The command to stop keeps the controller steady. -/
theorem Steady.stop (h : c.Steady) : c.stop.2.Steady := by
  rw [stop_eq]
  split
  · exact ⟨by simp, by simp, by simp, by simp⟩
  · exact h

/-- The call for a due task keeps the controller steady. -/
theorem Steady.onTaskDue (h : c.Steady) (task : TaskId) : (c.onTaskDue task).2.Steady := by
  unfold Controller.onTaskDue
  split
  · next hdue =>
    have hcancel := h.cancel.2 (.inl hdue.2)
    rcases ({ c with pending := none } : Controller ε σ).advance_cases with
      ⟨e, p, outcome, hadvance⟩ | ⟨e, p, progress, hne, hadvance⟩
    · rw [hadvance]
      exact steady_finish _ outcome
    · rw [hadvance]
      cases progress with
      | finished => exact absurd rfl hne
      | goesOn =>
        refine steady_scheduleNext ?_ ?_ <;> dsimp only <;> split
        all_goals first | exact hdue.2 | exact hcancel
      | hit =>
        simp only [setState_eq, showPosition, emit]
        exact ⟨by simp, by simp, by simpa using hcancel, by simp⟩
  · exact h

/-- Every command leaves a steady controller steady. -/
theorem Steady.obey (h : c.Steady) (command : ControllerCommand) :
    (c.obey command).2.Steady := by
  cases command with
  | run source bs => exact h.run source bs
  | pause => exact h.pause
  | step source bs => exact h.step source bs
  | stop => exact h.stop
  | onTaskDue task => exact h.onTaskDue task

/-! ## The scheduled step -/

/-- What becomes of the step that is waited for, from the controller `c` to the controller `c'`. -/
inductive Turn (c c' : Controller ε σ) : Prop
  | kept (pending : c'.pending = c.pending) (scheduler : c'.scheduler = c.scheduler)
  | revoked (pending : c'.pending = none) (scheduler : c'.scheduler = c.revoked)
  | scheduled (delay : Delay) (none : c.pending = none)
      (pending : c'.pending = some (StepScheduler.schedule c.scheduler delay).1)
      (scheduler : c'.scheduler = (StepScheduler.schedule c.scheduler delay).2)

omit [Evaluator ε] in
/-- Only the scheduler and the step that is waited for count. -/
theorem Turn.of_eq {c₁ c' : Controller ε σ} (h : Turn c₁ c') (hpending : c₁.pending = c.pending)
    (hscheduler : c₁.scheduler = c.scheduler) : Turn c c' := by
  have hrevoked : c₁.revoked = c.revoked := by rw [Controller.revoked, Controller.revoked,
    hpending, hscheduler]
  cases h with
  | kept pending scheduler => exact .kept (pending.trans hpending) (scheduler.trans hscheduler)
  | revoked pending scheduler => exact .revoked pending (scheduler.trans hrevoked)
  | scheduled delay none pending scheduler =>
    rw [hscheduler] at pending scheduler
    exact .scheduled delay (hpending.symm.trans none) pending scheduler

/-- One step that is followed by a pause is a turn. -/
theorem turn_stepAndPause (c : Controller ε σ) : Turn c c.stepAndPause := by
  unfold stepAndPause
  rcases c.advance_cases with ⟨e, p, outcome, h⟩ | ⟨e, p, progress, hne, h⟩
  · rw [h]
    dsimp only
    rw [finish_eq]
    exact .revoked rfl rfl
  · rw [h]
    cases progress with
    | finished => exact absurd rfl hne
    | goesOn | hit =>
      simp only [setState_eq, showPosition, emit]
      exact .kept rfl rfl

/-- The command to run is a turn. -/
theorem Steady.turn_run (h : c.Steady) (source : String) (bs : List Breakpoint) :
    Turn c (c.run source bs).2 := by
  unfold Controller.run
  split
  · next hidle =>
    refine .scheduled (.ofMillis c.options.stepDelay.toNat)
      (h.pending_eq_none (by simp [hidle])) ?_ ?_
    all_goals simp [scheduleNext, setState_eq, start]
  · next hpaused =>
    refine .scheduled (.ofMillis c.options.stepDelay.toNat)
      (h.pending_eq_none (by simp [hpaused])) ?_ ?_
    all_goals simp [scheduleNext, setState_eq, hidePosition, emit, updateBreakpoints]
  · exact .kept rfl rfl

omit [Evaluator ε] in
/-- The command to pause is a turn. -/
theorem turn_pause (c : Controller ε σ) : Turn c c.pause.2 := by
  rw [pause_eq]
  split
  · exact .revoked rfl rfl
  · exact .kept rfl rfl

/-- The command to take one step is a turn. -/
theorem turn_step (c : Controller ε σ) (source : String) (bs : List Breakpoint) :
    Turn c (c.step source bs).2 := by
  unfold Controller.step
  split
  · exact (turn_stepAndPause (c.start source bs)).of_eq rfl rfl
  · exact (turn_stepAndPause (c.updateBreakpoints bs)).of_eq rfl rfl
  · exact .kept rfl rfl

/-- The command to stop is a turn. -/
theorem turn_stop (c : Controller ε σ) : Turn c c.stop.2 := by
  rw [stop_eq]
  split
  · exact .revoked rfl rfl
  · exact .kept rfl rfl

/-- A call for the step that is waited for is accepted, and the step is no longer waited for. -/
theorem turn_onTaskDue {task : TaskId} (h : c.pending = some task ∧ c.state = .running) :
    (c.onTaskDue task).1 = true ∧ Turn { c with pending := none } (c.onTaskDue task).2 := by
  unfold Controller.onTaskDue
  rw [if_pos h]
  rcases ({ c with pending := none } : Controller ε σ).advance_cases with
    ⟨e, p, outcome, hadvance⟩ | ⟨e, p, progress, hne, hadvance⟩
  · rw [hadvance]
    dsimp only
    rw [finish_eq]
    exact ⟨rfl, .revoked rfl rfl⟩
  · rw [hadvance]
    cases progress with
    | finished => exact absurd rfl hne
    | goesOn =>
      refine ⟨rfl, .scheduled (.ofMillis c.options.stepDelay.toNat) rfl ?_ ?_⟩
      all_goals
        simp only [scheduleNext, showPosition, emit]
        split <;> rfl
    | hit =>
      simp only [setState_eq, showPosition, emit]
      exact ⟨trivial, .kept rfl rfl⟩

/-- Every other call for a step is refused and changes nothing. -/
theorem onTaskDue_of_not {task : TaskId} (h : ¬ (c.pending = some task ∧ c.state = .running)) :
    c.onTaskDue task = (false, c) :=
  if_neg h

end Controller

end StackEditor
