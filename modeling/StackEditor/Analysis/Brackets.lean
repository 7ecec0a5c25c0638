import StackEditor.Diagnostic

/-!
# Matching brackets

One walk with a stack of open brackets. A closing bracket takes the innermost open one and is
reported if that is missing or of another pair; what is still open at the end is reported in the
order of the source, behind all of those.
-/

namespace StackEditor.Analysis

/-- The reports for the tokens that follow, where `stack` holds the open brackets, innermost
first. -/
def checkBracketsFrom (stack : List Token) : List Token → List Diagnostic
  | [] => stack.reverse.map .unmatchedOpening
  | t :: ts =>
    if t.kind.isOpening then checkBracketsFrom (t :: stack) ts
    else if t.kind.isClosing then
      match stack with
      | [] => .unmatchedClosing t :: checkBracketsFrom [] ts
      | o :: rest =>
        if o.kind.closingPair? = some t.kind then checkBracketsFrom rest ts
        else .unmatchedClosing t :: checkBracketsFrom rest ts
    else checkBracketsFrom stack ts

/-- The brackets without a partner. -/
def checkBrackets (tokens : List Token) : List Diagnostic :=
  checkBracketsFrom [] tokens

end StackEditor.Analysis
