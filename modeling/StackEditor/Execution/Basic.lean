import StackEditor.Token

/-!
# The state of an execution

Where a run stands, and what state its controller is in.
-/

namespace StackEditor

/-- A token that a run is at, with its place. -/
structure ExecutionPosition where
  line : Nat
  col : Nat
  token : Token
  deriving DecidableEq

/-- A run that is at the token `t`. -/
def ExecutionPosition.atToken (t : Token) : ExecutionPosition := ⟨t.line, t.col, t⟩

def ExecutionPosition.position (p : ExecutionPosition) : Position := ⟨p.line, p.col⟩

/-- The state of a controller. A run that is stopped is reported as stopped, and at once as idle
again. -/
inductive ExecutionState where
  | idle
  | running
  | paused
  | stopped
  deriving DecidableEq

namespace ExecutionState

/-- There is a run, running or paused. -/
def isActive : ExecutionState → Bool
  | running => true
  | paused => true
  | _ => false

/-- The state as it is shown to a reader. -/
def label : ExecutionState → String
  | idle => "Idle"
  | running => "Running"
  | paused => "Paused"
  | stopped => "Stopped"

end ExecutionState

/-- How a controller treats its runs. -/
structure ControllerOptions where
  /-- Milliseconds before each scheduled step. -/
  stepDelay : UInt64
  /-- The position is reported at every step of a running run, and not only when it pauses. -/
  highlightWhileRunning : Bool
  deriving DecidableEq

/-- No delay, and every step reported. -/
def ControllerOptions.standard : ControllerOptions := ⟨0, true⟩

end StackEditor
