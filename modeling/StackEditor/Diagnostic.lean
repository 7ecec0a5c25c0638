import StackEditor.Token

/-!
# Diagnostics

A diagnostic is a remark on a range of the source. Its code names the cause; severity and message
follow from the code and the words it is about, so each cause has a function of its own here and
nowhere else is a message put together.
-/

namespace StackEditor

/-- How serious a diagnostic is. -/
inductive Severity where
  /-- Likely, but not certainly, a problem. -/
  | warning
  /-- The source is malformed. -/
  | error
  deriving DecidableEq

/-- The severity as it is shown to a reader. -/
def Severity.label : Severity → String
  | warning => "WARNING"
  | error => "ERROR"

/-- An error is more serious than a warning, and nothing else is more serious than anything. -/
def Severity.isAbove : Severity → Severity → Bool
  | error, warning => true
  | _, _ => false

/-- The cause of a diagnostic. -/
inductive DiagnosticCode where
  /-- A closing bracket without the opening bracket it belongs to. -/
  | unmatchedClosing
  /-- An opening bracket that is never closed. -/
  | unmatchedOpening
  /-- A token among the parameters that is neither a name nor a type. -/
  | invalidParameter
  /-- A type symbol that does not directly follow a parameter name. -/
  | misplacedType
  /-- A type symbol that names no type. -/
  | invalidSymbol
  /-- A well-formed type symbol for a type that nobody defines. -/
  | unknownType
  /-- A parameter with the name of a built-in function. -/
  | shadowedBuiltin
  /-- A token among the return types that is not a type symbol. -/
  | invalidReturn
  /-- A name that no definition accounts for. -/
  | unresolvedReference
  deriving DecidableEq

/-- A remark on a range of the source. -/
structure Diagnostic where
  severity : Severity
  code : DiagnosticCode
  message : String
  range : Range
  deriving DecidableEq

namespace Diagnostic

def isError (d : Diagnostic) : Bool := d.severity = .error

/-- The diagnostic as one line of text, with line and column counted from one. -/
def render (d : Diagnostic) : String :=
  d.severity.label ++ " " ++ toString (d.range.start.line + 1) ++ ":" ++
    toString (d.range.start.col + 1) ++ ": " ++ d.message

/-! ## The causes -/

def unmatchedClosing (t : Token) : Diagnostic :=
  ⟨.error, .unmatchedClosing, "expected matching opening bracket for `" ++ t.text ++ "`", t.range⟩

def unmatchedOpening (t : Token) : Diagnostic :=
  ⟨.error, .unmatchedOpening, "expected matching closing bracket for `" ++ t.text ++ "`", t.range⟩

def invalidParameter (t : Token) : Diagnostic :=
  ⟨.error, .invalidParameter, "expected a parameter name or type, found `" ++ t.text ++ "`",
    t.range⟩

def misplacedType (t : Token) : Diagnostic :=
  ⟨.error, .misplacedType, "type `" ++ t.text ++ "` must directly follow a parameter name",
    t.range⟩

def invalidSymbol (t : Token) : Diagnostic :=
  ⟨.error, .invalidSymbol, "`" ++ t.text ++ "` is not a valid type symbol", t.range⟩

/-- The symbol `t` asks for the type `name`. -/
def unknownType (t : Token) (name : String) : Diagnostic :=
  ⟨.warning, .unknownType, "unknown type `" ++ name ++ "`", t.range⟩

def shadowedBuiltin (t : Token) : Diagnostic :=
  ⟨.warning, .shadowedBuiltin, "parameter `" ++ t.text ++ "` shadows a built-in function",
    t.range⟩

def invalidReturn (t : Token) : Diagnostic :=
  ⟨.error, .invalidReturn, "expected a return type, found `" ++ t.text ++ "`", t.range⟩

def unresolvedReference (t : Token) : Diagnostic :=
  ⟨.warning, .unresolvedReference, "unresolved reference `" ++ t.text ++ "`", t.range⟩

end Diagnostic

end StackEditor
