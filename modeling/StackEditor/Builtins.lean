import StackEditor.NameSet

/-!
# Built-in names

The names that a program may use without defining them: functions, variables and types. The
standard names are fixed; `Builtins.extend` merges more of them in.
-/

namespace StackEditor

/-- Names to merge into the built-in ones, as lists. -/
structure BuiltinsData where
  functionNames : List String
  variableNames : List String
  typeNames : List String
  deriving DecidableEq

/-- No names at all. -/
def BuiltinsData.empty : BuiltinsData := ⟨[], [], []⟩

/-- The names that need no definition. -/
structure Builtins where
  functionNames : NameSet
  variableNames : NameSet
  typeNames : NameSet
  deriving DecidableEq

namespace Builtins

/-- Functions of the standard set. -/
def standardFunctions : List String := [
  "+", "-", "*", "/", "%", "=", "!=", "<", ">", "<=", ">=", "and", "or", "not",
  "abs", "min", "max", "floor", "ceil", "round", "sqrt",
  "dup", "drop", "swap", "over", "rot", "clear", "depth",
  "if", "ifelse", "when", "loop", "times", "while", "break", "call", "exit",
  "len", "get", "set", "push", "pop", "first", "last", "concat", "slice", "reverse",
  "map", "filter", "reduce", "each", "range", "join", "split", "upper", "lower",
  "str", "int", "float", "type", "is-int", "is-string", "is-array",
  "print", "println", "read", "sleep"]

/-- Variables of the standard set. -/
def standardVariables : List String := ["pi", "e", "nil", "args"]

/-- Types of the standard set. -/
def standardTypes : List String := [
  "Int", "Float", "Number", "Bool", "String", "Array", "Fn", "Any", "Nil"]

/-- No built-in names. -/
def empty : Builtins := ⟨.empty, .empty, .empty⟩

/-- The built-in names of every program. -/
def standard : Builtins :=
  ⟨.ofList standardFunctions, .ofList standardVariables, .ofList standardTypes⟩

/-- The names of `d` merged into `b`. -/
def extend (b : Builtins) (d : BuiltinsData) : Builtins :=
  ⟨b.functionNames.insertAll d.functionNames, b.variableNames.insertAll d.variableNames,
    b.typeNames.insertAll d.typeNames⟩

/-- The names of `d` alone. -/
def ofData (d : BuiltinsData) : Builtins := empty.extend d

def withFunction (b : Builtins) (name : String) : Builtins :=
  { b with functionNames := b.functionNames.insert name }

def withVariable (b : Builtins) (name : String) : Builtins :=
  { b with variableNames := b.variableNames.insert name }

def withType (b : Builtins) (name : String) : Builtins :=
  { b with typeNames := b.typeNames.insert name }

def isFunction (b : Builtins) (name : String) : Bool := name ∈ b.functionNames

def isVariable (b : Builtins) (name : String) : Bool := name ∈ b.variableNames

def isType (b : Builtins) (name : String) : Bool := name ∈ b.typeNames

/-- A built-in function or variable has this name. -/
def resolves (b : Builtins) (name : String) : Bool := b.isFunction name || b.isVariable name

end Builtins

end StackEditor
