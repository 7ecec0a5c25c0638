import StackEditor.NameSet
import StackEditor.Analysis.ParamList
import StackEditor.Text.Lowercase

/-!
# Definitions

What a source defines: functions, lambdas, data definitions and variables. A declaration is a
keyword `fn` or `datadef` with a name behind it, and it owns a parameter list that follows
directly. Any other closed parameter list with a body behind it is a lambda.

A data definition brings forth names of its own: a constructor, a predicate, and three names for
every field, all of them in lower case.

Nothing here fails. Text that is cut short has the definitions that it shows, and a body that is
never closed reaches to the end of the source.
-/

namespace StackEditor

/-! ## Declarations -/

/-- What a declaration declares. -/
inductive Declares where
  | function
  | data
  deriving DecidableEq

/-- What the token declares, if it is a declaring keyword. -/
def Token.declares? (t : Token) : Option Declares :=
  if t.kind = .keyword then
    if t.text = "fn" then some .function
    else if t.text = "datadef" then some .data
    else none
  else none

/-- A declaring keyword, its token index, and the name behind it. -/
structure Declaration where
  declares : Declares
  index : Nat
  keyword : Token
  name : Token

/-- The declarations of the tokens from index `i` on. -/
def declarationsFrom (i : Nat) : List Token → List Declaration
  | [] => []
  | keyword :: ts =>
    match keyword.declares?, ts with
    | some d, name :: _ =>
      if name.kind = .reference then ⟨d, i, keyword, name⟩ :: declarationsFrom (i + 1) ts
      else declarationsFrom (i + 1) ts
    | _, _ => declarationsFrom (i + 1) ts

/-- The declarations of a token sequence, in order. -/
def declarations (tokens : List Token) : List Declaration :=
  declarationsFrom 0 tokens

/-- The parameter list that the declaration owns. -/
def Declaration.paramList? (d : Declaration) (lists : List ParamList) : Option ParamList :=
  lists.find? (·.opening = d.index + 2)

/-! ## Bodies -/

/-- The end of a body, where `depth` braces are open inside of it. -/
def bodyStop (depth : Nat) : List Token → Position
  | [] => .last
  | t :: ts =>
    match t.kind, depth with
    | .opening .brace, d => bodyStop (d + 1) ts
    | .closing .brace, 0 => t.stop
    | .closing .brace, d + 1 => bodyStop d ts
    | _, d => bodyStop d ts

/-- The range of the body whose brace is the token with this index, if that is a brace. -/
def bodyRange? (tokens : List Token) (index : Nat) : Option Range :=
  match tokens.drop index with
  | t :: ts => if t.kind = .opening .brace then some ⟨t.start, bodyStop 0 ts⟩ else none
  | [] => none

/-- A function or a lambda: its name, if it is a function, its parameters and its body. -/
structure Callable where
  name : Option String
  params : List String
  body : Range
  deriving DecidableEq

/-- Only functions have names. -/
def Callable.isFunction (c : Callable) : Bool := c.name.isSome

/-- The name by which a function calls itself. -/
def recursionName : String := "recur"

/-! ## Data definitions -/

/-- A data definition, the place of its keyword, and its fields. -/
structure DataDef where
  name : String
  declaredAt : Position
  fields : List String
  deriving DecidableEq

namespace DataDef

/-- The start of every name that the definition brings forth. -/
def stem (d : DataDef) : String := Text.lowercase d.name

/-- The constructor, the predicate, and for each field the names that get it, set it and apply a
function to it. -/
def generatedNames (d : DataDef) : List String :=
  [d.stem ++ "-new", d.stem ++ "?"] ++
    d.fields.flatMap fun f =>
      [d.stem ++ "-" ++ f, d.stem ++ "-" ++ f ++ "-set", d.stem ++ "-" ++ f ++ "-do"]

end DataDef

/-! ## All definitions of a source -/

/-- What the declaration brings into scope, if it declares a function with a body. -/
def Declaration.callable? (d : Declaration) (tokens : List Token) (lists : List ParamList) :
    Option Callable :=
  match d.declares with
  | .data => none
  | .function =>
    match d.paramList? lists with
    | none => (bodyRange? tokens (d.index + 2)).map (⟨some d.name.text, [], ·⟩)
    | some l => do
      let body ← bodyRange? tokens ((← l.closing) + 1)
      return ⟨some d.name.text, l.parameterNames tokens, body⟩

/-- The data definition that the declaration makes, if it is one. -/
def Declaration.dataDef? (d : Declaration) (tokens : List Token) (lists : List ParamList) :
    Option DataDef :=
  match d.declares with
  | .function => none
  | .data =>
    some ⟨d.name.text, d.keyword.start,
      ((d.paramList? lists).map (·.parameterNames tokens)).getD []⟩

/-- The lambda with this parameter list, if a body follows the list. -/
def ParamList.lambda? (l : ParamList) (tokens : List Token) : Option Callable := do
  let body ← bodyRange? tokens ((← l.closing) + 1)
  return ⟨none, l.parameterNames tokens, body⟩

/-- The definitions of a token sequence. -/
structure Definitions where
  lists : List ParamList
  functionNames : NameSet
  variableNames : NameSet
  dataDefs : List DataDef
  callables : List Callable
  generated : NameSet
  declarationNames : List Nat

namespace Definitions

/-- The definitions of a token sequence. -/
def collect (tokens : List Token) : Definitions :=
  let lists := paramLists tokens
  let decls := declarations tokens
  let dataDefs := decls.filterMap (·.dataDef? tokens lists)
  let owned := decls.map (·.index + 2)
  { lists
    functionNames := .ofList ((decls.filter (·.declares = .function)).map (·.name.text))
    variableNames := .ofList (tokens.filterMap (·.assignedName?))
    dataDefs
    callables :=
      decls.filterMap (·.callable? tokens lists) ++
        (lists.filter (·.opening ∉ owned)).filterMap (·.lambda? tokens)
    generated := .ofList (dataDefs.flatMap (·.generatedNames))
    declarationNames := decls.map (·.index + 1) }

/-- The token with this index is the name in a declaration. -/
def isDeclarationName (d : Definitions) (index : Nat) : Bool := index ∈ d.declarationNames

/-- The token with this index belongs to a parameter list. -/
def inParamList (d : Definitions) (index : Nat) : Bool := d.lists.any (·.holdsIndex index)

/-- A data definition brings forth this name. -/
def isGenerated (d : Definitions) (name : String) : Bool := name ∈ d.generated

/-- A data definition with this name starts before `p`. -/
def dataDefBefore (d : Definitions) (name : String) (p : Position) : Bool :=
  d.dataDefs.any fun e => e.name = name && e.declaredAt < p

/-- The functions and lambdas whose body holds `p`. -/
def enclosing (d : Definitions) (p : Position) : List Callable :=
  d.callables.filter (·.body.contains p)

end Definitions

end StackEditor
