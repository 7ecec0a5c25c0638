import Mathlib.Data.List.Chain
import StackEditor.Proofs.Execution.History

/-!
# How runs end

Every run that is started ends once, unless it is under way, and its end is reported: the last event
of the command that ends it says how. `Deed.balance` counts starts against ends, and
`Deed.runFinished_spec` says which outcome is reported for what. The states that are reported are a
path from idle to the state that the controller is in (`StatePath`).
-/

namespace StackEditor

def EvaluatorCall.isReset : EvaluatorCall → Bool
  | reset => true
  | _ => false

namespace ControllerEvent

/-- The event reports the end of a run. -/
def isEnd : ControllerEvent → Bool
  | runFinished _ => true
  | _ => false

/-- The state that the event reports. -/
def state? : ControllerEvent → Option ExecutionState
  | stateChanged state => some state
  | _ => none

end ControllerEvent

/-! ## Paths of states -/

/-- The state `b` may be reported next after the state `a`. -/
def ExecutionState.Precedes (a b : ExecutionState) : Prop := a ≠ b ∧ (a = .stopped → b = .idle)

/-- Each state may be reported next after the one before it, and the last one is `s`. -/
structure StatePath (states : List ExecutionState) (s : ExecutionState) : Prop where
  chain : states.IsChain ExecutionState.Precedes
  last : states.getLast? = some s

namespace StatePath

variable {states more : List ExecutionState} {s s' : ExecutionState}

/-- A state that does not change is a path. -/
theorem singleton (s : ExecutionState) : StatePath [s] s := ⟨.singleton s, rfl⟩

/-- One change is a path of two states. -/
theorem pair (h : s.Precedes s') : StatePath [s, s'] s' :=
  ⟨List.isChain_cons_cons.2 ⟨h, .singleton s'⟩, rfl⟩

/-- A path goes on from its last state. -/
theorem append (h : StatePath states s) (hmore : StatePath (s :: more) s') :
    StatePath (states ++ more) s' := by
  obtain ⟨before, rfl⟩ := List.getLast?_eq_some_iff.1 h.last
  rw [List.append_assoc, List.singleton_append]
  refine ⟨List.isChain_split.2 ⟨h.chain, hmore.chain⟩, ?_⟩
  rw [List.getLast?_append_cons]
  exact hmore.last

end StatePath

namespace Controller

variable {ε σ : Type} {c : Controller ε σ} {command : ControllerCommand} {accepted : Bool}
  {calls : List EvaluatorCall} {events : List ControllerEvent} {s s' : Standing}

/-- A change of state ends no run. -/
theorem countP_isEnd_stateEvents (old new : ExecutionState) :
    (stateEvents old new).countP (·.isEnd) = 0 := by
  unfold stateEvents
  split <;> rfl

/-- A change of state tells of no outcome. -/
theorem runFinished_notMem_stateEvents (outcome : RunOutcome) (old new : ExecutionState) :
    .runFinished outcome ∉ stateEvents old new := by
  unfold stateEvents
  split <;> simp

/-- A change of state is reported unless it is none. -/
theorem statePath_stateEvents {old : ExecutionState} (h : old ≠ .stopped) (new : ExecutionState) :
    StatePath (old :: (stateEvents old new).filterMap (·.state?)) new := by
  unfold stateEvents
  split
  · next heq =>
    subst heq
    exact .singleton old
  · next hne => exact .pair ⟨hne, fun hstopped => absurd hstopped h⟩

/-! ## Steps -/

section
variable {highlight : Bool} {result : Except EvalError StepResult}

/-- The run that takes the step is over, or it is under way. -/
theorem Aftermath.balance (h : Aftermath highlight s result events s') :
    events.countP (·.isEnd) + s'.state.isActive.toNat = 1 := by
  cases h with
  | ended =>
    rw [List.countP_append, List.countP_append, countP_isEnd_stateEvents]
    rfl
  | paused =>
    rw [List.countP_append, countP_isEnd_stateEvents]
    rfl
  | wentOn ok done hit running =>
    rw [running]
    cases highlight <;> rfl

/-- What a step announces leads from the state before it to the state after it. -/
theorem Aftermath.statePath (h : Aftermath highlight s result events s')
    (hstate : s.state ≠ .stopped) :
    StatePath (s.state :: events.filterMap (·.state?)) s'.state := by
  cases h with
  | ended => simpa [ControllerEvent.state?] using statePath_stateEvents hstate .idle
  | paused => simpa [ControllerEvent.state?] using statePath_stateEvents hstate .paused
  | wentOn => cases highlight <;> exact .singleton _

/-- The end of a run is reported as the step had it, as the last event, and leaves no run. -/
theorem Aftermath.runFinished_spec (h : Aftermath highlight s result events s')
    (outcome : RunOutcome) :
    (.runFinished outcome ∈ events ↔ RunOutcome.ofStep? result = some outcome) ∧
      .runFinished outcome ∉ events.dropLast ∧
      (.runFinished outcome ∈ events → s'.state = .idle) := by
  cases h with
  | ended heq =>
    refine ⟨by simp [heq, runFinished_notMem_stateEvents, eq_comm], ?_, fun _ => rfl⟩
    rw [List.dropLast_concat]
    simp [runFinished_notMem_stateEvents]
  | paused ok done =>
    simp [RunOutcome.ofStep?_eq_none_iff.2 ⟨_, ok, done⟩, runFinished_notMem_stateEvents]
  | wentOn ok done =>
    cases highlight <;> simp [RunOutcome.ofStep?_eq_none_iff.2 ⟨_, ok, done⟩]

end

/-! ## Commands -/

section
variable [Evaluator ε]

/-- What opens a run resets the evaluator exactly when no run is going on. -/
theorem Opening.balance {source : String} {bs : List Breakpoint}
    (h : c.Opening source bs calls s) :
    calls.countP (·.isReset) + c.state.isActive.toNat = 1 ∧ s.state = c.state ∧
      (c.state = .idle ∨ c.state = .paused) := by
  cases h with
  | started idle => exact ⟨by rw [idle]; rfl, rfl, .inl idle⟩
  | resumed paused => exact ⟨by rw [paused]; rfl, rfl, .inr paused⟩

/-- The step that follows an opening is the only one the evaluator hears of. -/
theorem Opening.step_mem_iff {source : String} {bs : List Breakpoint}
    (h : c.Opening source bs calls s) {result result' : Except EvalError StepResult} :
    .step result' ∈ calls ++ [.step result] ↔ result' = result := by
  cases h <;> simp

/-- Starts and ends are even, but for the run that is under way. -/
theorem Deed.balance (h : c.Deed command accepted calls events s) :
    calls.countP (·.isReset) + c.state.isActive.toNat =
      events.countP (·.isEnd) + s.state.isActive.toNat := by
  cases h with
  | refused => rfl
  | ran opening =>
    rw [opening.balance.1, List.countP_append]
    split <;> rfl
  | paused running =>
    rw [running]
    rfl
  | stepped opening aftermath =>
    rw [List.countP_append, aftermath.balance, ← opening.balance.1]
    rfl
  | stopped active =>
    rw [active]
    rfl
  | fired pending running aftermath =>
    rw [running, aftermath.balance]
    rfl

/-- The states that are reported go on from the one before. -/
theorem Deed.statePath (h : c.Deed command accepted calls events s) :
    StatePath (c.state :: events.filterMap (·.state?)) s.state := by
  cases h with
  | refused => exact .singleton c.state
  | ran opening =>
    rcases opening.balance.2.2 with hidle | hpaused
    · rw [hidle]
      exact .pair ⟨by simp, by simp⟩
    · rw [hpaused]
      exact .pair ⟨by simp, by simp⟩
  | paused running =>
    rw [running]
    exact .pair ⟨by simp, by simp⟩
  | stepped opening aftermath =>
    obtain ⟨-, hstate, hidle⟩ := opening.balance
    rw [← hstate] at hidle ⊢
    exact aftermath.statePath (by rcases hidle with h | h <;> simp [h])
  | stopped active =>
    have hstopped : c.state.Precedes .stopped := by
      refine ⟨?_, fun h => ?_⟩
      · rcases ExecutionState.isActive_iff.1 active with h | h <;> simp [h]
      · rw [h] at active
        cases active
    have hidle : StatePath [.stopped, .idle] .idle := .pair ⟨by simp, fun _ => rfl⟩
    exact (StatePath.pair hstopped).append hidle
  | fired pending running aftermath => exact aftermath.statePath (by simp [standing, running])

/-- The end of a run is reported as the stop or the step had it, as the last event, and leaves no
run. -/
theorem Deed.runFinished_spec (h : c.Deed command accepted calls events s)
    (outcome : RunOutcome) :
    (.runFinished outcome ∈ events ↔
      (outcome = .cancelled ∧ command = .stop ∧ accepted = true) ∨
        ∃ result, .step result ∈ calls ∧ RunOutcome.ofStep? result = some outcome) ∧
      .runFinished outcome ∉ events.dropLast ∧
      (.runFinished outcome ∈ events → s.state = .idle) := by
  cases h with
  | refused => simp
  | ran opening =>
    have hnone : ∀ result, .step result ∉ calls := by cases opening <;> simp
    split <;> simp [hnone]
  | paused => simp
  | stepped opening aftermath =>
    simpa [opening.step_mem_iff] using aftermath.runFinished_spec outcome
  | stopped => simp
  | fired pending running aftermath => simpa using aftermath.runFinished_spec outcome

/-- The logs since the controller was made: the starts and the ends of runs are even, but for the
run that is under way, and the states that were reported lead from idle to the present one. -/
structure Tallies (log : List EvaluatorCall) (reports : List ControllerEvent) (s : Standing) :
    Prop where
  balance : log.countP (·.isReset) = reports.countP (·.isEnd) + s.state.isActive.toNat
  path : StatePath (.idle :: reports.filterMap (·.state?)) s.state

/-- A deed keeps the balance of resets and ends. -/
theorem Deed.tallies {log : List EvaluatorCall} {reports : List ControllerEvent}
    (h : Tallies log reports c.standing) (hdeed : c.Deed command accepted calls events s) :
    Tallies (log ++ calls) (reports ++ events) s where
  balance := by
    have hlog : log.countP (·.isReset) = reports.countP (·.isEnd) + c.state.isActive.toNat :=
      h.balance
    have hnext := hdeed.balance
    rw [List.countP_append, List.countP_append, hlog]
    omega
  path := by
    rw [List.filterMap_append]
    exact h.path.append hdeed.statePath

variable [StepScheduler σ]

/-- After any calls of a host: as many runs were reported to have ended as the evaluator was reset
for, but for the one that is under way. The end of a run is the last event of its command and leaves
no run; it is reported as cancelled for a stop that is accepted, and otherwise as the step of the
command failed or was done. The states that were reported go from idle to the present one, never
from a state to itself, and from stopped to idle. -/
theorem runs_end_once (evaluator : ε) (scheduler : σ) (options : ControllerOptions)
    (calls : List (HostCall σ)) :
    let start := new (Traced.watch evaluator) scheduler options
    let c := calls.foldl serve start
    let history := start.history calls
    let states := ExecutionState.idle :: c.events.filterMap (·.state?)
    c.evaluator.calls.countP (·.isReset) =
        c.events.countP (·.isEnd) + (if c.state = .running ∨ c.state = .paused then 1 else 0) ∧
      c.events = history.flatMap (·.events) ∧
      (∀ x ∈ history, ∀ outcome, .runFinished outcome ∉ x.events.dropLast ∧
        (.runFinished outcome ∈ x.events → x.after.state = .idle)) ∧
      (∀ x ∈ history,
        (.runFinished .cancelled ∈ x.events ↔ x.command = .stop ∧ x.accepted = true) ∧
        (∀ e, .runFinished (.failed e) ∈ x.events ↔ .step (.error e) ∈ x.calls) ∧
        (.runFinished .completed ∈ x.events ↔ ∃ r, .step (.ok r) ∈ x.calls ∧ r.done = true)) ∧
      states.IsChain ExecutionState.Precedes ∧ states.getLast? = some c.state ∧
      c.state ≠ .stopped := by
  intro start c history states
  have hsteady : start.Steady := steady_new _ _ _
  have hspec := fun x (hx : x ∈ history) =>
    (Exchange.deed (hsteady.of_mem_history hx)).1.runFinished_spec
  have htallies : Tallies c.evaluator.calls c.events c.standing :=
    logs_induction ⟨rfl, .singleton _⟩ (fun _ h hdeed => hdeed.tallies h) evaluator scheduler
      options calls
  refine ⟨?_, hsteady.events_foldl_serve calls, fun x hx outcome => (hspec x hx outcome).2,
    fun x hx => ⟨?_, fun e => ?_, ?_⟩, htallies.path.chain, htallies.path.last,
    (hsteady.foldl_serve calls).state⟩
  · have hbalance : _ = _ + c.state.isActive.toNat := htallies.balance
    rw [hbalance]
    congr 1
    cases c.state <;> rfl
  · simp [(hspec x hx .cancelled).1, RunOutcome.ofStep?_ne_cancelled]
  · simp [(hspec x hx (.failed e)).1, RunOutcome.ofStep?_eq_failed_iff]
  · simp [(hspec x hx .completed).1, RunOutcome.ofStep?_eq_completed_iff]

end

end Controller

end StackEditor
