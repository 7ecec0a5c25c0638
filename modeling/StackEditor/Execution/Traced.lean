import StackEditor.Execution.Evaluator

/-!
# Watching an evaluator

`Traced ε` is the evaluator `ε` together with a list of the calls that were made to it, in order
and with their arguments. Watching changes nothing: every call goes through to the evaluator, and
its answer comes back (`step_evaluator`, `step_result`, `tokenize_evaluator`).
-/

namespace StackEditor

/-- A call of an evaluator: its arguments, and for a step what came of it. -/
inductive EvaluatorCall where
  | tokenize (source : String)
  | reset
  | setBreakpoints (breakpoints : List Breakpoint)
  | startRun (tokens : List Token) (token : CancellationToken)
  | trip (token : CancellationToken)
  | step (result : Except EvalError StepResult)

/-- An evaluator that is watched. -/
structure Traced (ε : Type) where
  evaluator : ε
  /-- The calls that nobody has taken yet, oldest first. -/
  calls : List EvaluatorCall
  /-- The token of the latest run, and whether it was tripped. -/
  latest : Option (CancellationToken × Bool)

namespace Traced

variable {ε : Type}

/-- An evaluator that is watched from now on. -/
def watch (evaluator : ε) : Traced ε := ⟨evaluator, [], none⟩

/-- The calls so far, and the evaluator without them. -/
def takeCalls (t : Traced ε) : List EvaluatorCall × Traced ε :=
  (t.calls, { t with calls := [] })

/-- Writes down a call that leaves the evaluator as given. -/
def note (t : Traced ε) (c : EvaluatorCall) (evaluator : ε) : Traced ε :=
  { t with evaluator, calls := t.calls ++ [c] }

variable [Evaluator ε]

instance : Evaluator (Traced ε) where
  tokenize t source :=
    let (tokens, evaluator) := Evaluator.tokenize t.evaluator source
    (tokens, t.note (.tokenize source) evaluator)
  reset t := t.note .reset (Evaluator.reset t.evaluator)
  setBreakpoints t bs := t.note (.setBreakpoints bs) (Evaluator.setBreakpoints t.evaluator bs)
  startRun t tokens token :=
    { t.note (.startRun tokens token) (Evaluator.startRun t.evaluator tokens token) with
      latest := some (token, false) }
  trip t token :=
    { t.note (.trip token) (Evaluator.trip t.evaluator token) with
      latest := t.latest.map fun (own, tripped) => (own, tripped || own = token) }
  step t :=
    let (result, evaluator) := Evaluator.step t.evaluator
    (result, t.note (.step result) evaluator)

/-! ## Watching changes nothing -/

@[simp] theorem tokenize_evaluator (t : Traced ε) (source : String) :
    (Evaluator.tokenize t source).2.evaluator = (Evaluator.tokenize t.evaluator source).2 := rfl

@[simp] theorem tokenize_tokens (t : Traced ε) (source : String) :
    (Evaluator.tokenize t source).1 = (Evaluator.tokenize t.evaluator source).1 := rfl

@[simp] theorem reset_evaluator (t : Traced ε) :
    (Evaluator.reset t).evaluator = Evaluator.reset t.evaluator := rfl

@[simp] theorem setBreakpoints_evaluator (t : Traced ε) (bs : List Breakpoint) :
    (Evaluator.setBreakpoints t bs).evaluator = Evaluator.setBreakpoints t.evaluator bs := rfl

@[simp] theorem startRun_evaluator (t : Traced ε) (tokens : List Token)
    (token : CancellationToken) :
    (Evaluator.startRun t tokens token).evaluator =
      Evaluator.startRun t.evaluator tokens token := rfl

@[simp] theorem trip_evaluator (t : Traced ε) (token : CancellationToken) :
    (Evaluator.trip t token).evaluator = Evaluator.trip t.evaluator token := rfl

@[simp] theorem step_evaluator (t : Traced ε) :
    (Evaluator.step t).2.evaluator = (Evaluator.step t.evaluator).2 := rfl

@[simp] theorem step_result (t : Traced ε) :
    (Evaluator.step t).1 = (Evaluator.step t.evaluator).1 := rfl

end Traced

end StackEditor
