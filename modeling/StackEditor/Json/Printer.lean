import StackEditor.Json.Basic
import StackEditor.Text.Decimal
import StackEditor.Text.Hex

/-!
# Writing JSON

Two layouts of one spelling: without any space, and with every item and member on a line of its
own, two spaces deeper than the bracket around it. An empty array or object is two brackets in
either layout.
-/

namespace StackEditor.Json

/-- A character inside of a string. Quotes, backslashes and control characters are escaped, five
of the latter by a letter. -/
def escape (c : Char) : List Char :=
  if c = '"' then ['\\', '"']
  else if c = '\\' then ['\\', '\\']
  else if c = '\x08' then ['\\', 'b']
  else if c = '\x0c' then ['\\', 'f']
  else if c = '\n' then ['\\', 'n']
  else if c = '\r' then ['\\', 'r']
  else if c = '\t' then ['\\', 't']
  else if c.toNat < 0x20 then '\\' :: 'u' :: Text.hexDigits 4 c.toNat
  else [c]

/-- A string with its quotes. -/
def quote (s : String) : List Char :=
  '"' :: s.toList.flatMap escape ++ ['"']

/-- A number. A decimal is written with its digits and its power of ten. -/
def Number.write : Number → List Char
  | natural n => Text.decimalDigits n
  | decimal negative digits exponent =>
    (if negative then ['-'] else []) ++ Text.decimalDigits digits ++ 'e' ::
      (if exponent < 0 then ['-'] else []) ++ Text.decimalDigits exponent.natAbs

/-- The texts with a comma between them. -/
def separate (gap : List Char) : List (List Char) → List Char
  | [] => []
  | [t] => t
  | t :: ts => t ++ ',' :: gap ++ separate gap ts

/-- Two brackets around the texts. With `gap` before each text and `close` before the closing
bracket, unless there is no text. -/
def enclose (first : Char) (gap close : List Char) (last : Char) (ts : List (List Char)) :
    List Char :=
  match ts with
  | [] => [first, last]
  | ts => first :: gap ++ separate gap ts ++ close ++ [last]

/-! ## Without space -/

mutual

/-- The value without any space. -/
def write : Json → List Char
  | .null => "null".toList
  | .bool b => (if b then "true" else "false").toList
  | .number n => n.write
  | .string s => quote s
  | .array js => enclose '[' [] [] ']' (writeItems js)
  | .object ms => enclose '\x7b' [] [] '\x7d' (writeMembers ms)

def writeItems : List Json → List (List Char)
  | [] => []
  | j :: js => write j :: writeItems js

def writeMembers : List (String × Json) → List (List Char)
  | [] => []
  | (k, j) :: ms => (quote k ++ ':' :: write j) :: writeMembers ms

end

/-- The text of a value, without any space. -/
def compact (j : Json) : String := String.ofList (write j)

/-! ## On lines -/

/-- The start of a line at the given depth. -/
def newline (depth : Nat) : List Char := '\n' :: List.replicate (2 * depth) ' '

mutual

/-- The value on lines, inside of `depth` brackets. -/
def layout (depth : Nat) : Json → List Char
  | .null => "null".toList
  | .bool b => (if b then "true" else "false").toList
  | .number n => n.write
  | .string s => quote s
  | .array js => enclose '[' (newline (depth + 1)) (newline depth) ']' (layoutItems (depth + 1) js)
  | .object ms =>
    enclose '\x7b' (newline (depth + 1)) (newline depth) '\x7d' (layoutMembers (depth + 1) ms)

def layoutItems (depth : Nat) : List Json → List (List Char)
  | [] => []
  | j :: js => layout depth j :: layoutItems depth js

def layoutMembers (depth : Nat) : List (String × Json) → List (List Char)
  | [] => []
  | (k, j) :: ms => (quote k ++ ':' :: ' ' :: layout depth j) :: layoutMembers depth ms

end

/-- The text of a value on lines. -/
def pretty (j : Json) : String := String.ofList (layout 0 j)

end StackEditor.Json
