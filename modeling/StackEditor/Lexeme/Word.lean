import StackEditor.Token
import StackEditor.Text.Blank

/-!
# Words

A word is a run of characters that are neither blanks nor delimiters. `wordKind` reads its kind
off its text: truth values and reserved words are listed, a numeral follows a small grammar, a
word that ends in `!` assigns, and every other word is a name.
-/

namespace StackEditor.Lexeme

/-- Brackets and the double quote end a word. -/
def isDelimiter (c : Char) : Bool :=
  c == '(' || c == ')' || c == '[' || c == ']' || c == '\x7b' || c == '\x7d' || c == '"'

/-- The characters that words are made of. -/
def isWordChar (c : Char) : Bool :=
  !Text.isBlank c && !isDelimiter c

/-- The reserved words. -/
def keywords : List String := ["fn", "datadef", "debugger"]

/-- The text without one leading sign. -/
def dropSign : List Char → List Char
  | c :: rest => if c = '+' ∨ c = '-' then rest else c :: rest
  | [] => []

/-- One digit or more, and nothing else. -/
def isDigits (cs : List Char) : Bool :=
  !cs.isEmpty && cs.all Char.isDigit

/-- What may stand behind the digits of a numeral: nothing, or an exponent with its digits. -/
def isExponent : List Char → Bool
  | [] => true
  | c :: rest => (c == 'e' || c == 'E') && isDigits (dropSign rest)

/-- What may stand behind the first digits of a numeral: a point and more digits, if any, and an
exponent. -/
def isFraction : List Char → Bool
  | '.' :: rest => isExponent (rest.dropWhile Char.isDigit)
  | cs => isExponent cs

/-- A numeral: a sign or none, at least one digit, and perhaps a fraction and an exponent. Digits
are those of ASCII, as many as one likes. -/
def isNumeral (cs : List Char) : Bool :=
  match dropSign cs with
  | [] => false
  | d :: rest => d.isDigit && isFraction (rest.dropWhile Char.isDigit)

/-- More than a `!` alone, with a `!` at its end. -/
def isAssignment (cs : List Char) : Bool :=
  2 ≤ cs.length && cs.getLast? == some '!'

/-- The kind of a word, by its text. -/
def wordKind (cs : List Char) : Token.Kind :=
  if cs = "true".toList ∨ cs = "false".toList then .boolean
  else if String.ofList cs ∈ keywords then .keyword
  else if isNumeral cs then .number
  else if isAssignment cs then .assignment
  else .reference

end StackEditor.Lexeme
