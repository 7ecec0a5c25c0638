import StackEditor.Execution.Walker

/-!
# An evaluator with a script

A walker whose steps can be laid down in advance. If there is a script, a list of results, each
step takes its next entry instead of the walker's next token; all other calls go to the walker in
any case.
-/

namespace StackEditor

/-- One step of a script. -/
inductive ScriptStep where
  | fail (message : String)
  /-- A result at the token with the given number, if the run has one. -/
  | result (done hit : Bool) (token : Option Nat)
  deriving DecidableEq

/-- What the step is in a run over the given tokens. -/
def ScriptStep.answer (tokens : List Token) : ScriptStep → Except EvalError StepResult
  | fail message => .error ⟨message⟩
  | result done hit token => .ok ⟨done, (token.bind (tokens[·]?)).map .atToken, hit⟩

/-- A walker, and the script that its steps follow if there is one. -/
structure ScriptedWalker where
  walker : TokenWalker
  script : Option (List ScriptStep)
  /-- The steps of the script that are still to be taken. -/
  remaining : List ScriptStep
  deriving DecidableEq

namespace ScriptedWalker

/-- A walker that fails at a given text and follows a script, if there are such. -/
def new (failOn : Option String) (script : Option (List ScriptStep)) : ScriptedWalker :=
  ⟨.new failOn, script, script.getD []⟩

/-- Takes a step: that of the script, or that of the walker if there is no script. Behind its end
a script is done. -/
def step (s : ScriptedWalker) : Except EvalError StepResult × ScriptedWalker :=
  match s.script, s.remaining with
  | none, _ =>
    let (result, walker) := s.walker.step
    (result, { s with walker })
  | some _, [] => (.ok ⟨true, none, false⟩, s)
  | some _, e :: rest => (e.answer s.walker.tokens, { s with remaining := rest })

instance : Evaluator ScriptedWalker where
  tokenize s source :=
    let (tokens, walker) := Evaluator.tokenize s.walker source
    (tokens, { s with walker })
  reset s := { s with walker := s.walker.reset, remaining := s.script.getD [] }
  setBreakpoints s bs := { s with walker := Evaluator.setBreakpoints s.walker bs }
  startRun s tokens token := { s with walker := s.walker.startRun tokens token }
  trip s token := { s with walker := s.walker.trip token }
  step := step

end ScriptedWalker

end StackEditor
