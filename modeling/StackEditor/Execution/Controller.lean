import StackEditor.Execution.Evaluator
import StackEditor.Execution.Scheduler

/-!
# Controlling an execution

The controller drives an evaluator through runs: it runs, pauses, steps and stops. While a run is
running, one step is scheduled at a time, and the host calls back when it is due. A command that
the state does not allow answers `false` and does nothing, and so does a call for a step that is
no longer waited for.

Every change is reported as an event. A run ends with the event that says how.
-/

namespace StackEditor

/-- How a run ended. -/
inductive RunOutcome where
  | completed
  | failed (error : EvalError)
  /-- It was stopped, which is no failure. -/
  | cancelled
  deriving DecidableEq

/-- What a controller reports. -/
inductive ControllerEvent where
  | stateChanged (state : ExecutionState)
  /-- Where the execution is to be shown; `none` clears it. -/
  | positionChanged (position : Option ExecutionPosition)
  | runFinished (outcome : RunOutcome)
  deriving DecidableEq

/-- A controller of an evaluator, with its state, the step it waits for, the token of its run, the
place of the run, and the events that nobody has taken yet. -/
structure Controller (ε σ : Type) where
  evaluator : ε
  scheduler : σ
  options : ControllerOptions
  state : ExecutionState
  pending : Option TaskId
  cancel : Option CancellationToken
  position : Option ExecutionPosition
  events : List ControllerEvent
  /-- The number of runs that were started. -/
  runs : Nat

/-- What the controller does after a step. -/
inductive Progress where
  | goesOn
  | hit
  | finished
  deriving DecidableEq

namespace Controller

variable {ε σ : Type}

/-- A controller without a run. -/
def new (evaluator : ε) (scheduler : σ) (options : ControllerOptions) : Controller ε σ :=
  { evaluator, scheduler, options, state := .idle, pending := none, cancel := none,
    position := none, events := [], runs := 0 }

/-- The events so far, and the controller without them. -/
def takeEvents (c : Controller ε σ) : List ControllerEvent × Controller ε σ :=
  (c.events, { c with events := [] })

/-- Reports an event. -/
def emit (c : Controller ε σ) (e : ControllerEvent) : Controller ε σ :=
  { c with events := c.events ++ [e] }

/-- Changes the state and reports it, unless it is that already. -/
def setState (c : Controller ε σ) (s : ExecutionState) : Controller ε σ :=
  if c.state = s then c else { c with state := s }.emit (.stateChanged s)

/-- Reports where the run is. -/
def showPosition (c : Controller ε σ) : Controller ε σ := c.emit (.positionChanged c.position)

/-- Clears what is shown of the run. -/
def hidePosition (c : Controller ε σ) : Controller ε σ := c.emit (.positionChanged none)

section
variable [StepScheduler σ]

/-- Schedules the next step. -/
def scheduleNext (c : Controller ε σ) : Controller ε σ :=
  let (task, scheduler) := StepScheduler.schedule c.scheduler (.ofMillis c.options.stepDelay.toNat)
  { c with scheduler, pending := some task }

/-- Revokes the step that is waited for. -/
def cancelPending (c : Controller ε σ) : Controller ε σ :=
  match c.pending with
  | none => c
  | some task =>
    { c with scheduler := (StepScheduler.cancel c.scheduler task).2, pending := none }

/-- Ends the run. -/
def finish (c : Controller ε σ) (outcome : RunOutcome) : Controller ε σ :=
  let c := { c.cancelPending with cancel := none, position := none }
  (c.hidePosition.setState .idle).emit (.runFinished outcome)

/-- Pauses a running run and shows where it is. -/
def pause (c : Controller ε σ) : Bool × Controller ε σ :=
  if c.state = .running then (true, (c.cancelPending.setState .paused).showPosition)
  else (false, c)

variable [Evaluator ε]

/-- Starts a run over `source`, with a token of its own. -/
def start (c : Controller ε σ) (source : String) (bs : List Breakpoint) : Controller ε σ :=
  let evaluator := Evaluator.setBreakpoints (Evaluator.reset c.evaluator) bs
  let (tokens, evaluator) := Evaluator.tokenize evaluator source
  let token : CancellationToken := ⟨c.runs⟩
  { c with
    evaluator := Evaluator.startRun evaluator tokens token
    cancel := some token
    position := none
    runs := c.runs + 1 }

/-- Takes one step. -/
def advance (c : Controller ε σ) : Progress × Controller ε σ :=
  match Evaluator.step c.evaluator with
  | (.error e, evaluator) => (.finished, { c with evaluator }.finish (.failed e))
  | (.ok r, evaluator) =>
    let c := { c with evaluator, position := r.value.or c.position }
    if r.done then (.finished, c.finish .completed)
    else if r.breakpointHit then (.hit, c)
    else (.goesOn, c)

/-- Hands new breakpoints to the evaluator of a paused run. -/
def updateBreakpoints (c : Controller ε σ) (bs : List Breakpoint) : Controller ε σ :=
  { c with evaluator := Evaluator.setBreakpoints c.evaluator bs }

/-- Starts a run, or goes on with a paused one. -/
def run (c : Controller ε σ) (source : String) (bs : List Breakpoint) : Bool × Controller ε σ :=
  match c.state with
  | .idle => (true, ((c.start source bs).setState .running).scheduleNext)
  | .paused =>
    (true, ((c.updateBreakpoints bs).hidePosition.setState .running).scheduleNext)
  | _ => (false, c)

/-- Takes one step and pauses behind it, if the run is not at its end. -/
def stepAndPause (c : Controller ε σ) : Controller ε σ :=
  match c.advance with
  | (.finished, c) => c
  | (_, c) => (c.setState .paused).showPosition

/-- Takes exactly one step, in a new run if there is none. -/
def step (c : Controller ε σ) (source : String) (bs : List Breakpoint) : Bool × Controller ε σ :=
  match c.state with
  | .idle => (true, (c.start source bs).stepAndPause)
  | .paused => (true, (c.updateBreakpoints bs).stepAndPause)
  | _ => (false, c)

/-- Trips the token of the run. -/
def tripToken (c : Controller ε σ) : Controller ε σ :=
  match c.cancel with
  | none => c
  | some token => { c with evaluator := Evaluator.trip c.evaluator token, cancel := none }

/-- Abandons the run. -/
def stop (c : Controller ε σ) : Bool × Controller ε σ :=
  if c.state.isActive then
    let c := { c.cancelPending.tripToken with position := none }
    (true, ((c.hidePosition.setState .stopped).setState .idle).emit (.runFinished .cancelled))
  else (false, c)

/-- The host calls for the step `task`. The answer is whether a step was taken. -/
def onTaskDue (c : Controller ε σ) (task : TaskId) : Bool × Controller ε σ :=
  if c.pending = some task ∧ c.state = .running then
    match { c with pending := none }.advance with
    | (.goesOn, c) =>
      (true, (if c.options.highlightWhileRunning then c.showPosition else c).scheduleNext)
    | (.hit, c) => (true, (c.setState .paused).showPosition)
    | (.finished, c) => (true, c)
  else (false, c)

end

end Controller

end StackEditor
