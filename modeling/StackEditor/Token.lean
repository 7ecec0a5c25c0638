import StackEditor.Position

/-!
# Tokens

A token is a word of the stack language with its kind and its place. A token lies on one line,
so a line, a first column and an end column place it.

The six bracket kinds are the two sides of three pairs, which makes "the closing kind of an
opening kind" a matter of constructors.
-/

namespace StackEditor

/-- The three pairs of brackets. -/
inductive Bracket where
  /-- A parameter list, `( )`. -/
  | paren
  /-- An array, `[ ]`. -/
  | square
  /-- An executable array, `{ }`. -/
  | brace
  deriving DecidableEq

/-- What a token is, read off its text. -/
inductive Token.Kind where
  | number
  | string
  | boolean
  /-- A name that is looked up: a function, a variable or an operator. -/
  | reference
  /-- An assignment to a variable, `name!`. -/
  | assignment
  /-- A type symbol, `:Name`. -/
  | symbol
  /-- The arrow before the return types of a parameter list. -/
  | arrow
  /-- A reserved word. -/
  | keyword
  | opening (pair : Bracket)
  | closing (pair : Bracket)
  /-- Text that is no lexeme, such as a string without its end. -/
  | invalid
  deriving DecidableEq

namespace Token.Kind

def isOpening : Kind → Bool
  | opening _ => true
  | _ => false

def isClosing : Kind → Bool
  | closing _ => true
  | _ => false

/-- The kind that closes an opening bracket. -/
def closingPair? : Kind → Option Kind
  | opening b => some (closing b)
  | _ => none

/-- The kind that opens for a closing bracket. -/
def openingPair? : Kind → Option Kind
  | closing b => some (opening b)
  | _ => none

/-- The kind as it is shown to a reader. -/
def label : Kind → String
  | number => "number"
  | string => "string"
  | boolean => "boolean"
  | reference => "reference"
  | assignment => "assignment"
  | symbol => "symbol"
  | arrow => "arrow"
  | keyword => "keyword"
  | opening .paren => "("
  | closing .paren => ")"
  | opening .square => "["
  | closing .square => "]"
  | opening .brace => "\x7b"
  | closing .brace => "\x7d"
  | invalid => "invalid"

end Token.Kind

/-- A word of the source: its kind, its text and the columns it takes on its line. -/
structure Token where
  kind : Token.Kind
  text : String
  line : Nat
  col : Nat
  endCol : Nat
  deriving DecidableEq

namespace Token

def start (t : Token) : Position := ⟨t.line, t.col⟩

def stop (t : Token) : Position := ⟨t.line, t.endCol⟩

def range (t : Token) : Range := ⟨t.start, t.stop⟩

/-- The place `p` lies on one of the token's characters. -/
def covers (t : Token) (p : Position) : Bool :=
  p.line == t.line && t.col ≤ p.col && p.col < t.endCol

/-- The text without the `!` at its end. -/
def withoutBang (text : String) : Option String :=
  if text.toList.getLast? = some '!' then some (String.ofList text.toList.dropLast) else none

/-- The variable that an assignment assigns. -/
def assignedName? (t : Token) : Option String :=
  if t.kind = .assignment then withoutBang t.text else none

end Token

/-- The first token that covers the place `p`. -/
def tokenAt? (tokens : List Token) (p : Position) : Option Token :=
  tokens.find? (·.covers p)

end StackEditor
