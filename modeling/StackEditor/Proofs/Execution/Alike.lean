import StackEditor.Proofs.Alike
import StackEditor.Proofs.Execution.History

/-!
# Controllers over evaluators that answer alike

A controller knows its evaluator by the evaluator's answers alone: over evaluators that answer alike
it accepts the same commands, reports the same events and makes the same calls to its scheduler
(`Controller.Alike`), whatever its host does (`Controller.Alike.foldl_serve`). Watching an evaluator
is a case of this: what is shown of a controller whose evaluator is watched holds of the controller
whose evaluator is not (`Controller.alike_unwatched`).
-/

namespace StackEditor

namespace Controller

variable {ε ε' σ : Type} {R : ε → ε' → Prop} {c : Controller ε σ} {c' : Controller ε' σ}

/-- The controller with another evaluator. -/
def driving (c : Controller ε σ) (e : ε') : Controller ε' σ where
  evaluator := e
  scheduler := c.scheduler
  options := c.options
  state := c.state
  pending := c.pending
  cancel := c.cancel
  position := c.position
  events := c.events
  runs := c.runs

/-- The second controller is the first one over a related evaluator. -/
inductive Alike (R : ε → ε' → Prop) (c : Controller ε σ) : Controller ε' σ → Prop
  | driving (e : ε') (related : R c.evaluator e) : Alike R c (c.driving e)

/-! ## Parts of commands -/

theorem Alike.emit (h : Alike R c c') (event : ControllerEvent) :
    Alike R (c.emit event) (c'.emit event) := by
  obtain ⟨e, he⟩ := h
  exact .driving e he

theorem Alike.setState (h : Alike R c c') (s : ExecutionState) :
    Alike R (c.setState s) (c'.setState s) := by
  obtain ⟨e, he⟩ := h
  unfold Controller.setState
  by_cases hsame : c.state = s
  · rw [if_pos hsame, if_pos (show (c.driving e).state = s from hsame)]
    exact .driving e he
  · rw [if_neg hsame, if_neg (show (c.driving e).state ≠ s from hsame)]
    exact .driving e he

theorem Alike.hidePosition (h : Alike R c c') : Alike R c.hidePosition c'.hidePosition :=
  h.emit _

theorem Alike.showPosition (h : Alike R c c') : Alike R c.showPosition c'.showPosition := by
  obtain ⟨e, he⟩ := h
  exact .driving e he

theorem Alike.withEvaluator (h : Alike R c c') {e : ε} {e' : ε'} (he : R e e') :
    Alike R { c with evaluator := e } { c' with evaluator := e' } := by
  cases h
  exact .driving e' he

theorem Alike.withCancel (h : Alike R c c') (token : Option CancellationToken) :
    Alike R { c with cancel := token } { c' with cancel := token } := by
  obtain ⟨e, he⟩ := h
  exact .driving e he

theorem Alike.withPosition (h : Alike R c c') (p : Option ExecutionPosition) :
    Alike R { c with position := p } { c' with position := p } := by
  obtain ⟨e, he⟩ := h
  exact .driving e he

theorem Alike.withPending (h : Alike R c c') (task : Option TaskId) :
    Alike R { c with pending := task } { c' with pending := task } := by
  obtain ⟨e, he⟩ := h
  exact .driving e he

/-- Controllers that are alike are in the same state. -/
theorem Alike.state_eq (h : Alike R c c') : c'.state = c.state := by
  cases h
  rfl

section
variable [StepScheduler σ]

/-- Both schedule the next step. -/
theorem Alike.scheduleNext (h : Alike R c c') : Alike R c.scheduleNext c'.scheduleNext := by
  obtain ⟨e, he⟩ := h
  exact .driving e he

/-- Both cancel the pending task. -/
theorem Alike.cancelPending (h : Alike R c c') : Alike R c.cancelPending c'.cancelPending := by
  obtain ⟨e, he⟩ := h
  obtain ⟨evaluator, scheduler, options, state, pending, rest⟩ := c
  cases pending <;> exact .driving e he

/-- Both end the run with the same outcome. -/
theorem Alike.finish (h : Alike R c c') (outcome : RunOutcome) :
    Alike R (c.finish outcome) (c'.finish outcome) :=
  (((h.cancelPending.withCancel none).withPosition none).hidePosition.setState .idle).emit _

/-- Pausing both gives the same answer and leaves them alike. -/
theorem Alike.pause (h : Alike R c c') : Agree (Alike R) c.pause c'.pause := by
  unfold Controller.pause
  rw [h.state_eq]
  split
  · exact ⟨rfl, (h.cancelPending.setState .paused).showPosition⟩
  · exact ⟨rfl, h⟩

variable [Evaluator ε] [Evaluator ε']

omit [StepScheduler σ] in
/-- Both hand their evaluator the same breakpoints. -/
theorem Alike.updateBreakpoints (hR : EvaluatorsAlike R) (h : Alike R c c')
    (bs : List Breakpoint) : Alike R (c.updateBreakpoints bs) (c'.updateBreakpoints bs) := by
  obtain ⟨e, he⟩ := h
  exact .driving _ (hR.setBreakpoints he bs)

omit [StepScheduler σ] in
/-- Both start a run of the same source. -/
theorem Alike.start (hR : EvaluatorsAlike R) (h : Alike R c c') (source : String)
    (bs : List Breakpoint) : Alike R (c.start source bs) (c'.start source bs) := by
  obtain ⟨e, he⟩ := h
  obtain ⟨htokens, htokenize⟩ := hR.tokenize (hR.setBreakpoints (hR.reset he) bs) source
  have hstart := hR.startRun htokenize
    (Evaluator.tokenize (Evaluator.setBreakpoints (Evaluator.reset c.evaluator) bs) source).1
    ⟨c.runs⟩
  rw [htokens] at hstart
  unfold Controller.start
  dsimp only
  rw [htokens]
  exact .driving _ hstart

omit [StepScheduler σ] in
theorem Alike.tripToken (hR : EvaluatorsAlike R) (h : Alike R c c') :
    Alike R c.tripToken c'.tripToken := by
  obtain ⟨e, he⟩ := h
  obtain ⟨evaluator, scheduler, options, state, pending, cancel, rest⟩ := c
  cases cancel with
  | none => exact .driving e he
  | some token => exact .driving _ (hR.trip he token)

/-- One step on both has the same result and leaves them alike. -/
theorem Alike.advance (hR : EvaluatorsAlike R) (h : Alike R c c') :
    Agree (Alike R) c.advance c'.advance := by
  obtain ⟨e, he⟩ := h
  obtain ⟨result, e₁, e₂, hleft, hright, hstepped⟩ := (hR.step he).exists_eq
  unfold Controller.advance
  rw [show (c.driving e).evaluator = e from rfl, hleft, hright]
  have h : Alike R c (c.driving e) := .driving e he
  cases result with
  | error cause => exact ⟨rfl, (h.withEvaluator hstepped).finish _⟩
  | ok r =>
    have hafter := (h.withEvaluator hstepped).withPosition (r.value.or c.position)
    dsimp only
    by_cases hdone : r.done
    · rw [if_pos hdone, if_pos hdone]
      exact ⟨rfl, hafter.finish _⟩
    rw [if_neg hdone, if_neg hdone]
    by_cases hhit : r.breakpointHit
    · rw [if_pos hhit, if_pos hhit]
      exact ⟨rfl, hafter⟩
    · rw [if_neg hhit, if_neg hhit]
      exact ⟨rfl, hafter⟩

/-- One step followed by a pause leaves them alike. -/
theorem Alike.stepAndPause (hR : EvaluatorsAlike R) (h : Alike R c c') :
    Alike R c.stepAndPause c'.stepAndPause := by
  obtain ⟨progress, c₁, c₁', hleft, hright, hafter⟩ := (h.advance hR).exists_eq
  unfold Controller.stepAndPause
  rw [hleft, hright]
  cases progress with
  | finished => exact hafter
  | goesOn | hit => exact (hafter.setState .paused).showPosition

/-! ## Commands -/

/-- Running both gives the same answer and leaves them alike. -/
theorem Alike.run (hR : EvaluatorsAlike R) (h : Alike R c c') (source : String)
    (bs : List Breakpoint) : Agree (Alike R) (c.run source bs) (c'.run source bs) := by
  unfold Controller.run
  rw [h.state_eq]
  cases c.state with
  | idle => exact ⟨rfl, ((h.start hR source bs).setState .running).scheduleNext⟩
  | paused =>
    exact ⟨rfl, ((h.updateBreakpoints hR bs).hidePosition.setState .running).scheduleNext⟩
  | running | stopped => exact ⟨rfl, h⟩

/-- A single step on both gives the same answer and leaves them alike. -/
theorem Alike.step (hR : EvaluatorsAlike R) (h : Alike R c c') (source : String)
    (bs : List Breakpoint) : Agree (Alike R) (c.step source bs) (c'.step source bs) := by
  unfold Controller.step
  rw [h.state_eq]
  cases c.state with
  | idle => exact ⟨rfl, (h.start hR source bs).stepAndPause hR⟩
  | paused => exact ⟨rfl, (h.updateBreakpoints hR bs).stepAndPause hR⟩
  | running | stopped => exact ⟨rfl, h⟩

/-- Stopping both gives the same answer and leaves them alike. -/
theorem Alike.stop (hR : EvaluatorsAlike R) (h : Alike R c c') :
    Agree (Alike R) c.stop c'.stop := by
  have htripped := (h.cancelPending.tripToken hR).withPosition none
  unfold Controller.stop
  rw [h.state_eq]
  split
  · exact ⟨rfl, ((htripped.hidePosition.setState .stopped).setState .idle).emit _⟩
  · exact ⟨rfl, h⟩

/-- The call for a due task gives the same answer on both and leaves them alike. -/
theorem Alike.onTaskDue (hR : EvaluatorsAlike R) (h : Alike R c c') (task : TaskId) :
    Agree (Alike R) (c.onTaskDue task) (c'.onTaskDue task) := by
  have hpending : c'.pending = c.pending := by
    cases h
    rfl
  obtain ⟨progress, c₁, c₁', hleft, hright, hafter⟩ := ((h.withPending none).advance hR).exists_eq
  unfold Controller.onTaskDue
  by_cases hdue : c.pending = some task ∧ c.state = .running
  · have hdue' : c'.pending = some task ∧ c'.state = .running := by
      rwa [hpending, h.state_eq]
    rw [if_pos hdue, if_pos hdue', hleft, hright]
    cases progress with
    | finished => exact ⟨rfl, hafter⟩
    | hit => exact ⟨rfl, (hafter.setState .paused).showPosition⟩
    | goesOn =>
      have hoptions : c₁'.options = c₁.options := by
        cases hafter
        rfl
      dsimp only
      rw [hoptions]
      split
      · exact ⟨rfl, hafter.showPosition.scheduleNext⟩
      · exact ⟨rfl, hafter.scheduleNext⟩
  · have hdue' : ¬ (c'.pending = some task ∧ c'.state = .running) := by
      rwa [hpending, h.state_eq]
    rw [if_neg hdue, if_neg hdue']
    exact ⟨rfl, h⟩

/-- Every command is answered alike. -/
theorem Alike.obey (hR : EvaluatorsAlike R) (h : Alike R c c') :
    ∀ command, Agree (Alike R) (c.obey command) (c'.obey command)
  | .run source bs => h.run hR source bs
  | .pause => h.pause
  | .step source bs => h.step hR source bs
  | .stop => h.stop hR
  | .onTaskDue task => h.onTaskDue hR task

/-- One call of the host leaves them alike. -/
theorem Alike.serve (hR : EvaluatorsAlike R) (h : Alike R c c') (call : HostCall σ) :
    Alike R (c.serve call) (c'.serve call) := by
  cases call with
  | command command => exact (h.obey hR command).2
  | schedule change =>
    obtain ⟨e, he⟩ := h
    exact .driving e he

/-- Whatever its host does, a controller cannot tell its evaluator from one that answers alike. -/
theorem Alike.foldl_serve (hR : EvaluatorsAlike R) (h : Alike R c c') (calls : List (HostCall σ)) :
    Alike R (calls.foldl Controller.serve c) (calls.foldl Controller.serve c') := by
  induction calls generalizing c c' with
  | nil => exact h
  | cons call calls ih => exact ih (h.serve hR call)

end

end Controller

/-- An evaluator that is watched answers as it does when it is not. -/
theorem Traced.evaluatorsAlike {ε : Type} [Evaluator ε] :
    EvaluatorsAlike fun (t : Traced ε) e => t.evaluator = e where
  tokenize := by
    rintro t _ rfl source
    exact ⟨rfl, rfl⟩
  reset := by
    rintro t _ rfl
    rfl
  setBreakpoints := by
    rintro t _ rfl bs
    rfl
  startRun := by
    rintro t _ rfl tokens token
    rfl
  trip := by
    rintro t _ rfl token
    rfl
  step := by
    rintro t _ rfl
    exact ⟨rfl, rfl⟩

/-- Whether its evaluator is watched makes no difference to a controller. -/
theorem Controller.alike_unwatched {ε σ : Type} [Evaluator ε] [StepScheduler σ] (evaluator : ε)
    (scheduler : σ) (options : ControllerOptions) (calls : List (HostCall σ)) :
    Alike (fun (t : Traced ε) e => t.evaluator = e)
      (calls.foldl serve (new (Traced.watch evaluator) scheduler options))
      (calls.foldl serve (new evaluator scheduler options)) :=
  Alike.foldl_serve Traced.evaluatorsAlike (.driving evaluator rfl) calls

end StackEditor
