import StackEditor.Json.Printer
import StackEditor.Json.Schema

/-!
# Types with a JSON form

`Serial` ties a type to its schema and to the two maps between its values and canonical JSON. A
text is read through the schema first, so `ofJson?` sees canonical values only.

An enumeration is written by name; `Named` lists its values and names them.
-/

namespace StackEditor

/-- A type whose values are written as JSON. -/
class Serial (α : Type) where
  schema : Json.Schema
  toJson : α → Json
  /-- The value with this canonical form. -/
  ofJson? : Json → Option α

namespace Serial

/-- The value that a JSON text writes. -/
def parse (α : Type) [Serial α] (text : String) : Except Fault α := do
  let j ← (schema α).readText text
  Json.orUnfitting (ofJson? j)

/-- The value of a JSON value that need not be canonical. -/
def accept? (α : Type) [Serial α] (j : Json) : Option α := do
  ofJson? (← (schema α).accept j)

/-- The JSON text of a value, without any space. -/
def print [Serial α] (a : α) : String := (toJson a).compact

end Serial

/-! ## Enumerations -/

/-- A type with finitely many values, each with a name. -/
class Named (α : Type) where
  all : List α
  name : α → String

/-- The value with this name. -/
def Named.ofName? [Named α] (s : String) : Option α :=
  (Named.all : List α).find? (Named.name · = s)

/-- The variants with these names. -/
def Json.Variants.ofNames : List String → Json.Variants
  | [] => .none
  | n :: ns => .plain n (ofNames ns)

/-- The JSON form of an enumeration: the name. -/
@[reducible] def Serial.ofNamed (α : Type) [Named α] : Serial α where
  schema := .choice (.ofNames ((Named.all : List α).map Named.name))
  toJson a := .string (Named.name a)
  ofJson?
    | .string s => Named.ofName? s
    | _ => none

/-! ## Records, numbers and texts -/

/-- The fields with these names, forms, and values in their absence. -/
def Json.Fields.ofList : List (String × Json.Schema × Json.Missing) → Json.Fields
  | [] => .none
  | (name, s, missing) :: fs => .field name s missing (ofList fs)

/-- The form of a record with these fields. -/
def Json.Schema.ofFields (fs : List (String × Json.Schema × Json.Missing)) : Json.Schema :=
  .record (.ofList fs)

/-- A number of 64 bits. -/
def Json.Schema.word : Json.Schema := .natural maxWord64

/-- The number that a JSON value is. -/
def Json.natural? : Json → Option Nat
  | .number (.natural n) => some n
  | _ => none

/-- The text that a JSON value is. -/
def Json.string? : Json → Option String
  | .string s => some s
  | _ => none

/-- The truth value that a JSON value is. -/
def Json.bool? : Json → Option Bool
  | .bool b => some b
  | _ => none

/-- The items of an array. -/
def Json.items? : Json → Option (List Json)
  | .array js => some js
  | _ => none

/-- A value or `null`. -/
def Json.optional? (f : Json → Option α) : Json → Option (Option α)
  | .null => some none
  | j => (f j).map some

/-- A list of names as a JSON value. -/
def Json.ofNames (names : List String) : Json := .array (names.map .string)

/-- The names in an array of texts. -/
def Json.names? (j : Json) : Option (List String) := do
  (← j.items?).mapM string?

end StackEditor
