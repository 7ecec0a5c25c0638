import StackEditor.Builtins
import StackEditor.Diagnostic
import StackEditor.Analysis.Definitions

/-!
# Resolving references

A name resolves if any definition of the source could account for it, wherever it stands; only
parameters and the recursion name are bound to the body they belong to. The check may therefore
miss a mistake, and what it reports is a warning.
-/

namespace StackEditor.Analysis

/-- The callable accounts for `name` inside of its body. -/
def bindsName (name : String) (c : Callable) : Bool :=
  name = recursionName && c.isFunction || c.params.contains name

/-- Some definition accounts for the reference `t`. -/
def resolves (d : Definitions) (b : Builtins) (t : Token) : Bool :=
  b.resolves t.text || decide (t.text ∈ d.functionNames) || decide (t.text ∈ d.variableNames) ||
    d.isGenerated t.text || (d.enclosing t.start).any (bindsName t.text)

/-- The token `t` with index `i` is looked up: it is a name, and neither a parameter nor the name
in a declaration. -/
def isLookedUp (d : Definitions) (t : Token) (i : Nat) : Bool :=
  t.kind = .reference && !d.inParamList i && !d.isDeclarationName i

/-- The references that no definition accounts for. -/
def checkReferences (tokens : List Token) (d : Definitions) (b : Builtins) : List Diagnostic :=
  (tokens.zipIdx.filter fun (t, i) => isLookedUp d t i && !resolves d b t).map
    fun (t, _) => .unresolvedReference t

end StackEditor.Analysis
