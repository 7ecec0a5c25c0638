import StackEditor.Execution.Evaluator
import StackEditor.Lexeme.Tokens
import StackEditor.Text.Decimal

/-!
# An evaluator that walks

The walker visits the tokens of a source in order, one at each step, without giving them a
meaning. It asks for a pause at the keyword `debugger` and at breakpoints whose condition holds,
and it can be made to fail at tokens with a given text.
-/

namespace StackEditor

/-- The keyword at which the walker asks for a pause. -/
def debuggerKeyword : String := "debugger"

/-- A walker: the tokens of its run and those still to visit, its breakpoints, and counts of what
it did. -/
structure TokenWalker where
  tokens : List Token
  remaining : List Token
  breakpoints : List Breakpoint
  /-- The places of the breakpoints that the run has met, one entry for each visit. -/
  visits : List Position
  /-- The token of the run, and whether it was tripped. -/
  cancel : Option (CancellationToken × Bool)
  /-- The text at which a step fails. -/
  failOn : Option String
  logged : List String
  resets : Nat
  steps : Nat
  deriving DecidableEq

namespace TokenWalker

/-- A walker that fails at tokens with the given text, if there is one. -/
def new (failOn : Option String) : TokenWalker :=
  { tokens := [], remaining := [], breakpoints := [], visits := [], cancel := none, failOn,
    logged := [], resets := 0, steps := 0 }

/-- The token of the run was tripped. -/
def isCancelled (w : TokenWalker) : Bool :=
  match w.cancel with
  | some (_, tripped) => tripped
  | none => false

/-- The breakpoint at a place. Of several, the last one set counts. -/
def breakpointAt? (w : TokenWalker) (p : Position) : Option Breakpoint :=
  w.breakpoints.reverse.find? (·.position = p)

/-- Whether the walker pauses at the token, and the walker that has taken note of the visit. -/
def visit (w : TokenWalker) (t : Token) : Bool × TokenWalker :=
  if t.kind = .keyword ∧ t.text = debuggerKeyword then (true, w)
  else
    match w.breakpointAt? t.start with
    | none => (false, w)
    | some b =>
      let w := { w with visits := t.start :: w.visits }
      let expression := b.expression.getD ""
      match b.kind with
      | .unconditional => (true, w)
      | .expression => (expression = "true", w)
      | .hitCount => (Text.count? expression = some (w.visits.count t.start), w)
      | .log => (false, { w with logged := w.logged ++ [t.text ++ ": " ++ expression] })

/-- The failure of a step at the token. -/
def failure (t : Token) : EvalError :=
  ⟨"cannot execute `" ++ t.text ++ "` at " ++ toString (t.line + 1) ++ ":" ++
    toString (t.col + 1)⟩

/-- Visits the next token. Behind the last one the run is done, and so is a run that was
cancelled. -/
def step (w : TokenWalker) : Except EvalError StepResult × TokenWalker :=
  let w := { w with steps := w.steps + 1 }
  if w.isCancelled then (.ok ⟨true, none, false⟩, w)
  else
    match w.remaining with
    | [] => (.ok ⟨true, w.tokens.getLast?.map .atToken, false⟩, w)
    | t :: ts =>
      let w := { w with remaining := ts }
      if w.failOn = some t.text then (.error (failure t), w)
      else
        let (pause, w) := w.visit t
        (.ok ⟨false, some (.atToken t), pause⟩, w)

/-- The walker after the token of a run was tripped. -/
def trip (w : TokenWalker) (token : CancellationToken) : TokenWalker :=
  match w.cancel with
  | some (own, _) => if own = token then { w with cancel := some (own, true) } else w
  | none => w

def reset (w : TokenWalker) : TokenWalker :=
  { w with tokens := [], remaining := [], visits := [], cancel := none, resets := w.resets + 1 }

def startRun (w : TokenWalker) (tokens : List Token) (token : CancellationToken) : TokenWalker :=
  { w with tokens, remaining := tokens, cancel := some (token, false) }

instance : Evaluator TokenWalker where
  tokenize w source := (StackEditor.tokenize source, w)
  reset := reset
  setBreakpoints w bs := { w with breakpoints := bs }
  startRun := startRun
  trip := trip
  step := step

end TokenWalker

end StackEditor
