import StackEditor.Breakpoint.Basic
import StackEditor.Execution.Basic

/-!
# Evaluators

An evaluator runs a program one step at a time. Between steps it keeps all of its own state, so a
pause is nothing to it.

Each run has a cancellation token. When the token is tripped, the evaluator is told so, and a
step that is under way is expected to give up.
-/

namespace StackEditor

/-- Why a step failed, in the evaluator's own words. -/
structure EvalError where
  message : String
  deriving DecidableEq

/-- What a step did. -/
structure StepResult where
  /-- The program is at its end. -/
  done : Bool
  /-- Where the run is. -/
  value : Option ExecutionPosition
  /-- The evaluator asks for a pause. -/
  breakpointHit : Bool
  deriving DecidableEq

/-- The cancellation signal of one run. Runs are numbered, and each has a signal of its own. -/
structure CancellationToken where
  run : Nat
  deriving DecidableEq

/-- An evaluator that runs tokens step by step. -/
class Evaluator (ε : Type) where
  tokenize : ε → String → List Token × ε
  /-- Drops all that is left of the last run. -/
  reset : ε → ε
  /-- Sets the breakpoints at which the evaluator asks for a pause. -/
  setBreakpoints : ε → List Breakpoint → ε
  startRun : ε → List Token → CancellationToken → ε
  /-- The token of a run is tripped. -/
  trip : ε → CancellationToken → ε
  step : ε → Except EvalError StepResult × ε

end StackEditor
