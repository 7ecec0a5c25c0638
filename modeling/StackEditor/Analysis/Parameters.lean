import StackEditor.Builtins
import StackEditor.Diagnostic
import StackEditor.Analysis.Definitions
import StackEditor.Text.Numeric

/-!
# Checking parameter lists

Parameters are names, each with a type symbol behind it or not; return types are type symbols.
Every token of a list gets at most one report.
-/

namespace StackEditor.Analysis

/-- A type name starts with a letter and goes on with letters, numbers, `_` and `-`. -/
def isTypeName (cs : List Char) : Bool :=
  match cs with
  | [] => false
  | c :: rest =>
    Text.isAlphabetic c && rest.all fun d => Text.isAlphanumeric d || d = '_' || d = '-'

/-- The type that a symbol asks for: its text without the colon. -/
def typeName (text : String) : String :=
  match text.toList with
  | ':' :: cs => String.ofList cs
  | _ => ""

/-- The report on a type symbol, if it is malformed or nobody defines its type. -/
def checkTypeSymbol (d : Definitions) (b : Builtins) (t : Token) : List Diagnostic :=
  let name := typeName t.text
  if !isTypeName name.toList then [.invalidSymbol t]
  else if !b.isType name && !d.dataDefBefore name t.start then [.unknownType t name]
  else []

/-- The reports on parameters. `afterName` tells whether a name stands directly before them. -/
def checkParameters (d : Definitions) (b : Builtins) (shadowed : Bool) (afterName : Bool) :
    List Token → List Diagnostic
  | [] => []
  | t :: ts =>
    match t.kind with
    | .reference =>
      (if shadowed && b.isFunction t.text then [.shadowedBuiltin t] else []) ++
        checkParameters d b shadowed true ts
    | .symbol =>
      (if afterName then checkTypeSymbol d b t else [.misplacedType t]) ++
        checkParameters d b shadowed false ts
    | _ => .invalidParameter t :: checkParameters d b shadowed false ts

/-- The reports on return types. -/
def checkReturns (d : Definitions) (b : Builtins) (tokens : List Token) : List Diagnostic :=
  tokens.flatMap fun t => if t.kind = .symbol then checkTypeSymbol d b t else [.invalidReturn t]

/-- The reports on one parameter list. -/
def checkParamList (tokens : List Token) (d : Definitions) (b : Builtins) (shadowed : Bool)
    (l : ParamList) : List Diagnostic :=
  checkParameters d b shadowed false (l.parameters tokens) ++ checkReturns d b (l.returns tokens)

/-- The reports on all parameter lists. `shadowed` asks for reports on parameters that are named
like a built-in function. -/
def checkParamLists (tokens : List Token) (d : Definitions) (b : Builtins) (shadowed : Bool) :
    List Diagnostic :=
  d.lists.flatMap (checkParamList tokens d b shadowed)

end StackEditor.Analysis
