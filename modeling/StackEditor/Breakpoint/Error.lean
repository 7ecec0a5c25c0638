import StackEditor.Breakpoint.Basic
import StackEditor.Text.Blank
import StackEditor.Text.Decimal

/-!
# When a breakpoint is refused

The causes, and the check of a breakpoint's expression. An expression is trimmed; all kinds that
need one need more than blanks, and a hit count must be a positive number of 64 bits.
-/

namespace StackEditor

/-- Why a breakpoint is refused. -/
inductive BreakpointError where
  | noToken (position : Position)
  | anchorRejected (position : Position)
  | missingExpression (kind : BreakpointKind)
  | invalidHitCount (expression : String)
  deriving DecidableEq

/-- The error as it is shown to a reader, with line and column counted from one. -/
def BreakpointError.message : BreakpointError → String
  | noToken p =>
    "No token at line " ++ toString (p.line + 1) ++ ", column " ++ toString (p.col + 1)
  | anchorRejected p =>
    "Host rejected anchor at line " ++ toString (p.line + 1) ++ ", column " ++
      toString (p.col + 1)
  | missingExpression k => "A " ++ k.label ++ " breakpoint requires an expression"
  | invalidHitCount e => "Invalid hit count: " ++ e

/-- The text is a positive number of 64 bits. -/
def isHitCount (text : String) : Bool :=
  match Text.count? text with
  | some n => 0 < n
  | none => false

/-- The expression that a breakpoint of this kind gets. -/
def checkExpression (kind : BreakpointKind) (expression : Option String) :
    Except BreakpointError (Option String) :=
  if kind.needsExpression then
    match (expression.map Text.trim).filter (· ≠ "") with
    | none => .error (.missingExpression kind)
    | some e =>
      if kind = .hitCount && !isHitCount e then .error (.invalidHitCount e) else .ok (some e)
  else .ok none

end StackEditor
