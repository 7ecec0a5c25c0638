import StackEditor.Identifier
import StackEditor.Position

/-!
# Breakpoints

A breakpoint stands at the start of a token and is tied to an anchor, which follows the text
through edits.
-/

namespace StackEditor

/-- What happens when a run reaches a breakpoint. -/
inductive BreakpointKind where
  /-- It always pauses. -/
  | unconditional
  /-- It pauses if the expression holds. -/
  | expression
  /-- It pauses at the visit whose number the expression gives. -/
  | hitCount
  /-- It writes the expression down and goes on. -/
  | log
  deriving DecidableEq

namespace BreakpointKind

/-- All kinds but the unconditional one carry an expression. -/
def needsExpression (k : BreakpointKind) : Bool := k ≠ unconditional

/-- The kind as it is shown to a reader. -/
def label : BreakpointKind → String
  | unconditional => "unconditional"
  | expression => "expression"
  | hitCount => "hit count"
  | log => "log"

end BreakpointKind

/-- A breakpoint. Its position is where its anchor was when somebody last looked. -/
structure Breakpoint where
  anchor : AnchorId
  position : Position
  kind : BreakpointKind
  expression : Option String
  deriving DecidableEq

end StackEditor
