import StackEditor.Execution.Traced
import StackEditor.Proofs.Execution.Commands

/-!
# What a command does

Of a command one sees whether the controller accepts it, which calls the evaluator hears, which
events are reported, and where the controller stands afterwards. `Deed` lists all that can be seen
together, and `exists_deed` says that the list is complete. What is said about histories of commands
rests on this list and on no definition of a command.
-/

namespace StackEditor

/-- A run is going on while the controller is running or paused. -/
theorem ExecutionState.isActive_iff {s : ExecutionState} :
    s.isActive = true ↔ s = .running ∨ s = .paused := by
  cases s <;> simp [isActive]

/-- How a step with this result ends the run, if it does. -/
def RunOutcome.ofStep? : Except EvalError StepResult → Option RunOutcome
  | .error e => some (.failed e)
  | .ok r => if r.done then some .completed else none

section
variable {result : Except EvalError StepResult}

/-- Only a step that was taken and did not finish the run leaves it going on. -/
theorem RunOutcome.ofStep?_eq_none_iff :
    ofStep? result = none ↔ ∃ r, result = .ok r ∧ r.done = false := by
  cases result <;> simp [ofStep?]

/-- A run completes with the step that says it is done. -/
theorem RunOutcome.ofStep?_eq_completed_iff :
    ofStep? result = some .completed ↔ ∃ r, result = .ok r ∧ r.done = true := by
  cases result <;> simp [ofStep?]

/-- A run fails with the error of the step, and with no other. -/
theorem RunOutcome.ofStep?_eq_failed_iff {e : EvalError} :
    ofStep? result = some (.failed e) ↔ result = .error e := by
  cases result <;> simp [ofStep?]

/-- No step cancels its run: only the command to stop does. -/
theorem RunOutcome.ofStep?_ne_cancelled : ofStep? result ≠ some .cancelled := by
  cases result <;> simp [ofStep?]

end

/-! ## What an evaluator hears -/

section
variable {ε : Type} [Evaluator ε]

/-- The evaluator `e` hears the call, answers it as the call says, and becomes `e'`. -/
inductive Hears : ε → EvaluatorCall → ε → Prop
  | tokenize (e : ε) (source : String) : Hears e (.tokenize source) (Evaluator.tokenize e source).2
  | reset (e : ε) : Hears e .reset (Evaluator.reset e)
  | setBreakpoints (e : ε) (bs : List Breakpoint) :
      Hears e (.setBreakpoints bs) (Evaluator.setBreakpoints e bs)
  | startRun (e : ε) (tokens : List Token) (token : CancellationToken) :
      Hears e (.startRun tokens token) (Evaluator.startRun e tokens token)
  | trip (e : ε) (token : CancellationToken) : Hears e (.trip token) (Evaluator.trip e token)
  | step (e : ε) : Hears e (.step (Evaluator.step e).1) (Evaluator.step e).2

/-- The evaluator `e` hears the calls, one after the other, and becomes `e'`. -/
inductive HearsAll : ε → List EvaluatorCall → ε → Prop
  | nil (e : ε) : HearsAll e [] e
  | cons {e e₁ e' : ε} {call : EvaluatorCall} {calls : List EvaluatorCall} (head : Hears e call e₁)
      (tail : HearsAll e₁ calls e') : HearsAll e (call :: calls) e'

/-- What an evaluator hears in two stretches it hears in one. -/
theorem HearsAll.append {e e₁ e' : ε} {calls more : List EvaluatorCall} (h : HearsAll e calls e₁)
    (hmore : HearsAll e₁ more e') : HearsAll e (calls ++ more) e' := by
  induction h with
  | nil => exact hmore
  | cons head _ ih => exact .cons head (ih hmore)

/-- The first calls are heard first. -/
theorem HearsAll.exists_of_append {e e' : ε} {calls more : List EvaluatorCall}
    (h : HearsAll e (calls ++ more) e') : ∃ e₁, HearsAll e calls e₁ ∧ HearsAll e₁ more e' := by
  induction calls generalizing e with
  | nil => exact ⟨e, .nil e, h⟩
  | cons call calls ih =>
    obtain _ | ⟨head, tail⟩ := h
    obtain ⟨e₁, hcalls, hmore⟩ := ih tail
    exact ⟨e₁, .cons head hcalls, hmore⟩

/-- A call for a step is answered by the evaluator that hears it. -/
theorem HearsAll.step_eq {e e' : ε} {result : Except EvalError StepResult}
    (h : HearsAll e [.step result] e') : Evaluator.step e = (result, e') := by
  obtain _ | ⟨head, tail⟩ := h
  cases head
  cases tail
  rfl

/-- One call is a stretch of calls. -/
theorem Hears.all {e e' : ε} {call : EvaluatorCall} (h : Hears e call e') :
    HearsAll e [call] e' :=
  .cons h (.nil e')

/-- The evaluator after it has heard a call. -/
def hear (e : ε) : EvaluatorCall → ε
  | .tokenize source => (Evaluator.tokenize e source).2
  | .reset => Evaluator.reset e
  | .setBreakpoints bs => Evaluator.setBreakpoints e bs
  | .startRun tokens token => Evaluator.startRun e tokens token
  | .trip token => Evaluator.trip e token
  | .step _ => (Evaluator.step e).2

/-- What is heard decides what becomes of the evaluator. -/
theorem HearsAll.eq_foldl {e e' : ε} {calls : List EvaluatorCall} (h : HearsAll e calls e') :
    e' = calls.foldl hear e := by
  induction h with
  | nil => rfl
  | cons head _ ih =>
    rw [ih]
    cases head <;> rfl

/-- An evaluator that is watched writes down what it hears. -/
theorem HearsAll.calls_eq {t t' : Traced ε} {calls : List EvaluatorCall}
    (h : HearsAll t calls t') : t'.calls = t.calls ++ calls := by
  induction h with
  | nil => rw [List.append_nil]
  | cons head _ ih =>
    rw [ih]
    cases head <;> exact List.append_assoc _ [_] _

/-- What a watched evaluator hears, the evaluator hears. -/
theorem HearsAll.evaluator {t t' : Traced ε} {calls : List EvaluatorCall}
    (h : HearsAll t calls t') : HearsAll t.evaluator calls t'.evaluator := by
  induction h with
  | nil => exact .nil _
  | cons head _ ih =>
    cases head with
    | tokenize => exact .cons (.tokenize _ _) ih
    | reset => exact .cons (.reset _) ih
    | setBreakpoints => exact .cons (.setBreakpoints _ _) ih
    | startRun => exact .cons (.startRun _ _ _) ih
    | trip => exact .cons (.trip _ _) ih
    | step => exact .cons (.step _) ih

end

/-! ## Deeds -/

/-- Where a controller stands: all of it that decides about the run, but for the step that it waits
for. -/
structure Standing where
  state : ExecutionState
  cancel : Option CancellationToken
  position : Option ExecutionPosition
  runs : Nat

namespace Controller

variable {ε σ : Type}

def standing (c : Controller ε σ) : Standing := ⟨c.state, c.cancel, c.position, c.runs⟩

/-- What follows a step that had the given result: the events, and where the controller stands. The
run ends, or it pauses, or it goes on; it goes on only if it was running and is not to pause. -/
inductive Aftermath (highlight : Bool) (s : Standing) (result : Except EvalError StepResult) :
    List ControllerEvent → Standing → Prop
  | ended {outcome : RunOutcome} (outcome_eq : RunOutcome.ofStep? result = some outcome) :
      Aftermath highlight s result
        ([.positionChanged none] ++ stateEvents s.state .idle ++ [.runFinished outcome])
        ⟨.idle, none, none, s.runs⟩
  | paused {r : StepResult} (ok : result = .ok r) (done : r.done = false)
      (hit : s.state = .running → r.breakpointHit = true) :
      Aftermath highlight s result
        (stateEvents s.state .paused ++ [.positionChanged (r.value.or s.position)])
        { s with state := .paused, position := r.value.or s.position }
  | wentOn {r : StepResult} (ok : result = .ok r) (done : r.done = false)
      (hit : r.breakpointHit = false) (running : s.state = .running) :
      Aftermath highlight s result
        (if highlight then [.positionChanged (r.value.or s.position)] else [])
        { s with position := r.value.or s.position }

section
variable [Evaluator ε]

/-- The tokens of a run that is started over `source`. -/
def runTokens (c : Controller ε σ) (source : String) (bs : List Breakpoint) : List Token :=
  (Evaluator.tokenize (Evaluator.setBreakpoints (Evaluator.reset c.evaluator) bs) source).1

/-- How a run is taken up: a new one is started, or the paused one is told the breakpoints. -/
inductive Opening (c : Controller ε σ) (source : String) (bs : List Breakpoint) :
    List EvaluatorCall → Standing → Prop
  | started (idle : c.state = .idle) :
      Opening c source bs
        [.reset, .setBreakpoints bs, .tokenize source, .startRun (c.runTokens source bs) ⟨c.runs⟩]
        { c.standing with cancel := some ⟨c.runs⟩, position := none, runs := c.runs + 1 }
  | resumed (paused : c.state = .paused) : Opening c source bs [.setBreakpoints bs] c.standing

/-- What can be seen of a command: whether it is accepted, the calls that the evaluator hears, the
events that are reported, and where the controller stands afterwards. -/
inductive Deed (c : Controller ε σ) :
    ControllerCommand → Bool → List EvaluatorCall → List ControllerEvent → Standing → Prop
  | refused (command : ControllerCommand) : Deed c command false [] [] c.standing
  | ran {source : String} {bs : List Breakpoint} {calls : List EvaluatorCall} {s : Standing}
      (opening : c.Opening source bs calls s) :
      Deed c (.run source bs) true calls
        ((if c.state = .paused then [.positionChanged none] else []) ++ [.stateChanged .running])
        { s with state := .running }
  | paused (running : c.state = .running) :
      Deed c .pause true [] [.stateChanged .paused, .positionChanged c.position]
        { c.standing with state := .paused }
  | stepped {source : String} {bs : List Breakpoint} {calls : List EvaluatorCall}
      {events : List ControllerEvent} {s s' : Standing} {result : Except EvalError StepResult}
      (opening : c.Opening source bs calls s)
      (aftermath : Aftermath c.options.highlightWhileRunning s result events s') :
      Deed c (.step source bs) true (calls ++ [.step result]) events s'
  | stopped {token : CancellationToken} (active : c.state.isActive = true)
      (cancel : c.cancel = some token) :
      Deed c .stop true [.trip token]
        [.positionChanged none, .stateChanged .stopped, .stateChanged .idle,
          .runFinished .cancelled]
        ⟨.idle, none, none, c.runs⟩
  | fired {task : TaskId} {events : List ControllerEvent} {s' : Standing}
      {result : Except EvalError StepResult} (pending : c.pending = some task)
      (running : c.state = .running)
      (aftermath : Aftermath c.options.highlightWhileRunning c.standing result events s') :
      Deed c (.onTaskDue task) true [.step result] events s'

/-- From `c` to `c'` the evaluator heard the calls, and the events were reported; the options are
the same. -/
structure Adds (c c' : Controller ε σ) (calls : List EvaluatorCall)
    (events : List ControllerEvent) : Prop where
  heard : HearsAll c.evaluator calls c'.evaluator
  events : c'.events = c.events ++ events
  options : c'.options = c.options

/-- Two changes of a controller, one after the other, add what both add. -/
theorem Adds.trans {c c₁ c' : Controller ε σ} {calls more : List EvaluatorCall}
    {events news : List ControllerEvent} (h : Adds c c₁ calls events)
    (h' : Adds c₁ c' more news) : Adds c c' (calls ++ more) (events ++ news) where
  heard := h.heard.append h'.heard
  events := by rw [h'.events, h.events, List.append_assoc]
  options := h'.options.trans h.options

/-! ## Parts of commands -/

/-- The start of a run empties the evaluator, hands it the breakpoints and the source, and gives it
a fresh token. -/
theorem adds_start (c : Controller ε σ) (source : String) (bs : List Breakpoint) :
    Adds c (c.start source bs)
      [.reset, .setBreakpoints bs, .tokenize source, .startRun (c.runTokens source bs) ⟨c.runs⟩]
      [] where
  heard := .cons (.reset _) (.cons (.setBreakpoints _ _) (.cons (.tokenize _ _)
    (Hears.startRun _ _ _).all))
  events := (List.append_nil _).symm
  options := rfl

/-- Handing the evaluator breakpoints is one call and no event. -/
theorem adds_updateBreakpoints (c : Controller ε σ) (bs : List Breakpoint) :
    Adds c (c.updateBreakpoints bs) [.setBreakpoints bs] [] where
  heard := (Hears.setBreakpoints _ _).all
  events := (List.append_nil _).symm
  options := rfl

/-- A change of state is announced, and the evaluator hears nothing of it. -/
theorem adds_setState (c : Controller ε σ) (s : ExecutionState) :
    Adds c (c.setState s) [] (stateEvents c.state s) := by
  rw [setState_eq]
  exact ⟨.nil _, rfl, rfl⟩

/-- Hiding the position is announced, and the evaluator hears nothing of it. -/
theorem adds_hidePosition (c : Controller ε σ) :
    Adds c c.hidePosition [] [.positionChanged none] :=
  ⟨.nil _, rfl, rfl⟩

omit [Evaluator ε] in
/-- A change of state changes nothing else of the standing. -/
theorem standing_setState (c : Controller ε σ) (s : ExecutionState) :
    (c.setState s).standing = { c.standing with state := s } := by
  rw [setState_eq]
  rfl

variable [StepScheduler σ]

/-- Scheduling a step is neither announced nor heard by the evaluator. -/
theorem adds_scheduleNext (c : Controller ε σ) : Adds c c.scheduleNext [] [] :=
  ⟨.nil _, (List.append_nil _).symm, rfl⟩

omit [Evaluator ε] in
theorem standing_scheduleNext (c : Controller ε σ) : c.scheduleNext.standing = c.standing := rfl

/-! ## Steps -/

variable {c : Controller ε σ}

/-- A step that ends the run. -/
theorem advance_of_some {outcome : RunOutcome}
    (h : RunOutcome.ofStep? (Evaluator.step c.evaluator).1 = some outcome) :
    c.advance = (.finished, ({ c with evaluator := (Evaluator.step c.evaluator).2 } :
      Controller ε σ).finish outcome) := by
  unfold advance
  split
  · next e evaluator hstep =>
    rw [hstep] at h ⊢
    obtain rfl := Option.some.inj h
    rfl
  · next r evaluator hstep =>
    rw [hstep] at h ⊢
    cases hdone : r.done with
    | false => simp [RunOutcome.ofStep?, hdone] at h
    | true =>
      obtain rfl : RunOutcome.completed = outcome := by simpa [RunOutcome.ofStep?, hdone] using h
      simp only [if_true, finish_eq]
      rfl

/-- A step that does not end the run. -/
theorem advance_of_ok {r : StepResult}
    (h : (Evaluator.step c.evaluator).1 = .ok r) (hdone : r.done = false) :
    c.advance = (if r.breakpointHit then .hit else .goesOn,
      { c with
        evaluator := (Evaluator.step c.evaluator).2
        position := r.value.or c.position }) := by
  unfold advance
  split
  · next e evaluator hstep =>
    rw [hstep] at h
    cases h
  · next r' evaluator hstep =>
    rw [hstep] at h ⊢
    obtain rfl := Except.ok.inj h
    simp only [hdone, Bool.false_eq_true, if_false]
    split <;> rfl

/-- The end of the run, with its step. -/
theorem exists_aftermath_finish {outcome : RunOutcome}
    (h : RunOutcome.ofStep? (Evaluator.step c.evaluator).1 = some outcome) :
    let c' := ({ c with evaluator := (Evaluator.step c.evaluator).2 } :
      Controller ε σ).finish outcome
    ∃ events, Aftermath c.options.highlightWhileRunning c.standing
      (Evaluator.step c.evaluator).1 events c'.standing ∧
        Adds c c' [.step (Evaluator.step c.evaluator).1] events := by
  dsimp only
  rw [finish_eq]
  exact ⟨_, .ended h, (Hears.step _).all, by simp [standing], rfl⟩

omit [StepScheduler σ] in
/-- A pause, with the step before it. -/
theorem exists_aftermath_pause {r : StepResult} (h : (Evaluator.step c.evaluator).1 = .ok r)
    (hdone : r.done = false) (hhit : c.state = .running → r.breakpointHit = true) :
    let c' := (({ c with
      evaluator := (Evaluator.step c.evaluator).2
      position := r.value.or c.position } : Controller ε σ).setState .paused).showPosition
    ∃ events, Aftermath c.options.highlightWhileRunning c.standing
      (Evaluator.step c.evaluator).1 events c'.standing ∧
        Adds c c' [.step (Evaluator.step c.evaluator).1] events := by
  dsimp only
  rw [setState_eq]
  exact ⟨_, .paused h hdone hhit, (Hears.step _).all, by simp [showPosition, emit, standing], rfl⟩

/-- A step behind which the run goes on. -/
theorem exists_aftermath_goOn {r : StepResult} (h : (Evaluator.step c.evaluator).1 = .ok r)
    (hdone : r.done = false) (hhit : r.breakpointHit = false) (hrunning : c.state = .running) :
    let c₁ : Controller ε σ := { c with
      evaluator := (Evaluator.step c.evaluator).2
      position := r.value.or c.position }
    let c' := (if c.options.highlightWhileRunning then c₁.showPosition else c₁).scheduleNext
    ∃ events, Aftermath c.options.highlightWhileRunning c.standing
      (Evaluator.step c.evaluator).1 events c'.standing ∧
        Adds c c' [.step (Evaluator.step c.evaluator).1] events := by
  dsimp only
  cases c.options.highlightWhileRunning with
  | true => exact ⟨_, .wentOn h hdone hhit hrunning, (Hears.step _).all, rfl, rfl⟩
  | false =>
    exact ⟨_, .wentOn h hdone hhit hrunning, (Hears.step _).all, (List.append_nil _).symm, rfl⟩

/-- What follows a step that is taken on command. -/
theorem exists_aftermath_stepAndPause (hstate : c.state ≠ .running) :
    ∃ result events, Aftermath c.options.highlightWhileRunning c.standing result events
      c.stepAndPause.standing ∧ Adds c c.stepAndPause [.step result] events := by
  refine ⟨(Evaluator.step c.evaluator).1, ?_⟩
  cases hresult : RunOutcome.ofStep? (Evaluator.step c.evaluator).1 with
  | some outcome =>
    rw [stepAndPause, advance_of_some hresult]
    exact exists_aftermath_finish hresult
  | none =>
    obtain ⟨r, hok, hdone⟩ := RunOutcome.ofStep?_eq_none_iff.1 hresult
    rw [stepAndPause, advance_of_ok hok hdone]
    cases r.breakpointHit <;>
      exact exists_aftermath_pause hok hdone fun hrunning => absurd hrunning hstate

/-- What follows the step that was waited for. -/
theorem exists_aftermath_onTaskDue {task : TaskId}
    (h : c.pending = some task ∧ c.state = .running) :
    ∃ result events, Aftermath c.options.highlightWhileRunning c.standing result events
      (c.onTaskDue task).2.standing ∧ Adds c (c.onTaskDue task).2 [.step result] events := by
  -- What the controller waits for is not seen in what follows.
  have hforget : ∀ {c' : Controller ε σ} {events : List ControllerEvent},
      Adds { c with pending := none } c' [.step (Evaluator.step c.evaluator).1] events →
        Adds c c' [.step (Evaluator.step c.evaluator).1] events :=
    fun hadds => ⟨hadds.heard, hadds.events, hadds.options⟩
  refine ⟨(Evaluator.step c.evaluator).1, ?_⟩
  rw [onTaskDue, if_pos h]
  cases hresult : RunOutcome.ofStep? (Evaluator.step c.evaluator).1 with
  | some outcome =>
    rw [advance_of_some (c := { c with pending := none }) hresult]
    obtain ⟨events, haftermath, hadds⟩ :=
      exists_aftermath_finish (c := { c with pending := none }) hresult
    exact ⟨events, haftermath, hforget hadds⟩
  | none =>
    obtain ⟨r, hok, hdone⟩ := RunOutcome.ofStep?_eq_none_iff.1 hresult
    rw [advance_of_ok (c := { c with pending := none }) hok hdone]
    cases hhit : r.breakpointHit with
    | true =>
      obtain ⟨events, haftermath, hadds⟩ :=
        exists_aftermath_pause (c := { c with pending := none }) hok hdone fun _ => hhit
      exact ⟨events, haftermath, hforget hadds⟩
    | false =>
      obtain ⟨events, haftermath, hadds⟩ :=
        exists_aftermath_goOn (c := { c with pending := none }) hok hdone hhit h.2
      exact ⟨events, haftermath, hforget hadds⟩

/-! ## Commands -/

omit [StepScheduler σ] in
/-- A refused command is a deed that leaves everything as it is. -/
theorem exists_deed_refused (c : Controller ε σ) (command : ControllerCommand) :
    ∃ calls events, c.Deed command false calls events c.standing ∧ Adds c c calls events :=
  ⟨[], [], .refused command, .nil _, (List.append_nil _).symm, rfl⟩

/-- The command to run is one of the deeds, accepted or not. -/
theorem exists_deed_run (c : Controller ε σ) (source : String) (bs : List Breakpoint) :
    ∃ calls events, c.Deed (.run source bs) (c.run source bs).1 calls events
      (c.run source bs).2.standing ∧ Adds c (c.run source bs).2 calls events := by
  rw [Controller.run]
  split
  · next hidle =>
    have hstart : (c.start source bs).state = .idle := hidle
    have hadds := ((adds_start c source bs).trans (adds_setState _ .running)).trans
      (adds_scheduleNext _)
    rw [standing_scheduleNext, standing_setState]
    refine ⟨_, _, .ran (.started hidle), ?_⟩
    simpa [hidle, hstart, stateEvents] using hadds
  · next hpaused =>
    have hstart : (c.updateBreakpoints bs).hidePosition.state = .paused := hpaused
    have hadds := (((adds_updateBreakpoints c bs).trans (adds_hidePosition _)).trans
      (adds_setState _ .running)).trans (adds_scheduleNext _)
    rw [standing_scheduleNext, standing_setState]
    refine ⟨_, _, .ran (.resumed hpaused), ?_⟩
    simpa [hpaused, hstart, stateEvents] using hadds
  · exact exists_deed_refused c _

/-- The command to pause is one of the deeds. -/
theorem exists_deed_pause (c : Controller ε σ) :
    ∃ calls events, c.Deed .pause c.pause.1 calls events c.pause.2.standing ∧
      Adds c c.pause.2 calls events := by
  rw [pause_eq]
  split
  · next hrunning =>
    exact ⟨_, _, .paused hrunning, .nil _, by simp [hrunning, stateEvents], rfl⟩
  · exact exists_deed_refused c _

/-- The command to take one step is one of the deeds. -/
theorem exists_deed_step (c : Controller ε σ) (source : String) (bs : List Breakpoint) :
    ∃ calls events, c.Deed (.step source bs) (c.step source bs).1 calls events
      (c.step source bs).2.standing ∧ Adds c (c.step source bs).2 calls events := by
  rw [Controller.step]
  split
  · next hidle =>
    have hstart : (c.start source bs).state = .idle := hidle
    obtain ⟨result, events, haftermath, hadds⟩ :=
      exists_aftermath_stepAndPause (c := c.start source bs) (by simp [hstart])
    exact ⟨_, _, .stepped (.started hidle) haftermath, (adds_start c source bs).trans hadds⟩
  · next hpaused =>
    have hstart : (c.updateBreakpoints bs).state = .paused := hpaused
    obtain ⟨result, events, haftermath, hadds⟩ :=
      exists_aftermath_stepAndPause (c := c.updateBreakpoints bs) (by simp [hstart])
    exact ⟨_, _, .stepped (.resumed hpaused) haftermath,
      (adds_updateBreakpoints c bs).trans hadds⟩
  · exact exists_deed_refused c _

/-- A run that is stopped must have a token. -/
theorem exists_deed_stop (hstate : c.state ≠ .stopped)
    (hcancel : c.state.isActive = true → c.cancel.isSome) :
    ∃ calls events, c.Deed .stop c.stop.1 calls events c.stop.2.standing ∧
      Adds c c.stop.2 calls events := by
  rw [stop_eq]
  split
  · next hactive =>
    obtain ⟨token, htoken⟩ := Option.isSome_iff_exists.1 (hcancel hactive)
    have hevents : stateEvents c.state .stopped ++ stateEvents .stopped .idle =
        [.stateChanged .stopped, .stateChanged .idle] := by
      simp [stateEvents, hstate]
    refine ⟨_, _, .stopped hactive htoken, ?_, ?_, rfl⟩
    · rw [tripped, htoken]
      exact (Hears.trip _ _).all
    · simp only [List.append_assoc, List.cons_append, List.nil_append]
      rw [← List.append_assoc (stateEvents _ _), hevents]
      rfl
  · exact exists_deed_refused c _

/-- The call for a due task is one of the deeds. -/
theorem exists_deed_onTaskDue (c : Controller ε σ) (task : TaskId) :
    ∃ calls events, c.Deed (.onTaskDue task) (c.onTaskDue task).1 calls events
      (c.onTaskDue task).2.standing ∧ Adds c (c.onTaskDue task).2 calls events := by
  by_cases hdue : c.pending = some task ∧ c.state = .running
  · obtain ⟨result, events, haftermath, hadds⟩ := exists_aftermath_onTaskDue hdue
    rw [(turn_onTaskDue hdue).1]
    exact ⟨_, _, .fired hdue.1 hdue.2 haftermath, hadds⟩
  · rw [onTaskDue_of_not hdue]
    exact exists_deed_refused c _

/-- What a command does is listed, unless the controller is seen stopped or has lost the token of
its run. -/
theorem exists_deed (hstate : c.state ≠ .stopped)
    (hcancel : c.state.isActive = true → c.cancel.isSome) (command : ControllerCommand) :
    ∃ calls events, c.Deed command (c.obey command).1 calls events
      (c.obey command).2.standing ∧ Adds c (c.obey command).2 calls events := by
  cases command with
  | run source bs => exact exists_deed_run c source bs
  | pause => exact exists_deed_pause c
  | step source bs => exact exists_deed_step c source bs
  | stop => exact exists_deed_stop hstate hcancel
  | onTaskDue task => exact exists_deed_onTaskDue c task

/-- What a command of a steady controller does is listed. -/
theorem Steady.exists_deed (h : c.Steady) (command : ControllerCommand) :
    ∃ calls events, c.Deed command (c.obey command).1 calls events
      (c.obey command).2.standing ∧ Adds c (c.obey command).2 calls events :=
  Controller.exists_deed h.state
    (fun hactive => h.cancel.2 (ExecutionState.isActive_iff.1 hactive)) command

end

end Controller

end StackEditor
