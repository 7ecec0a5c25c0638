/-!
# JSON values

A JSON value as data. A number is a natural number if its text is made of digits alone and fits
64 bits; every other number is kept as an exact decimal. An object keeps its members in order,
and no two of them have one key.

`Fault` says in which of three ways a text fails to give the value that is asked for.
-/

namespace StackEditor

/-- Why a JSON text is not accepted. -/
inductive Fault where
  /-- The text ends too early. -/
  | cutShort
  /-- The text is not JSON at this place. -/
  | malformed
  /-- The text is JSON, but not of the form that is asked for. -/
  | unfitting
  deriving DecidableEq

/-- A JSON number. -/
inductive Json.Number where
  /-- A number of 64 bits, written with digits alone. -/
  | natural (n : Nat)
  /-- The number `± digits · 10 ^ exponent`. -/
  | decimal (negative : Bool) (digits : Nat) (exponent : Int)
  deriving DecidableEq

/-- A JSON value. -/
inductive Json where
  | null
  | bool (b : Bool)
  | number (n : Json.Number)
  | string (s : String)
  | array (items : List Json)
  | object (members : List (String × Json))

namespace Json

/-- A natural number as a JSON value. -/
def natural (n : Nat) : Json := .number (.natural n)

/-- A value that may be missing; `null` stands for none. -/
def ofOption (f : α → Json) : Option α → Json
  | some a => f a
  | none => .null

/-- The member of an object with the given key. -/
def member? (key : String) : Json → Option Json
  | .object ms => ms.lookup key
  | _ => none

/-- The members `ms` with the value of `key` replaced, or with the member at the end if the key
is new. -/
def setMember (key : String) (value : Json) : List (String × Json) → List (String × Json)
  | [] => [(key, value)]
  | (k, v) :: ms => if k = key then (k, value) :: ms else (k, v) :: setMember key value ms

end Json

end StackEditor
