import StackEditor.Json.Numeral
import StackEditor.Json.Quoted

/-!
# The marks of a JSON text

A mark is a bracket, a comma, a colon, or one literal, number or string. The marks of a text end
with its first flaw, since nobody reads on behind one.
-/

namespace StackEditor.Json

/-- A value that is written as a word. -/
inductive Literal where
  | null
  | bool (b : Bool)
  deriving DecidableEq

/-- A smallest meaningful part of a JSON text. -/
inductive Mark where
  | openArray
  | closeArray
  | openObject
  | closeObject
  | comma
  | colon
  /-- A word, or the fault of a text that only starts like one. -/
  | literal (word : Except Fault Literal)
  | number (n : Numeral)
  | string (q : Quoted)
  /-- A character that starts no mark. -/
  | stray

/-- The characters between marks. -/
def isSpace (c : Char) : Bool := c == ' ' || c == '\n' || c == '\t' || c == '\r'

/-- The text starts with the word `w`, or has a fault there. -/
def follow : List Char → List Char → Except Fault Unit
  | [], _ => .ok ()
  | _ :: _, [] => .error .cutShort
  | w :: ws, c :: cs => if w = c then follow ws cs else .error .malformed

/-- The words that are values. -/
def literalWords : List (List Char × Literal) :=
  [("null".toList, .null), ("true".toList, .bool true), ("false".toList, .bool false)]

/-- The word that starts with `c`, if there is one. -/
def literalWord? (c : Char) : Option (List Char × Literal) :=
  literalWords.find? (·.1.head? = some c)

/-- A character that starts a number. -/
def startsNumber (c : Char) : Bool := c == '-' || c.isDigit

/-- A mark of one character. -/
def punctuation? : Char → Option Mark
  | '[' => some .openArray
  | ']' => some .closeArray
  | '\x7b' => some .openObject
  | '\x7d' => some .closeObject
  | ',' => some .comma
  | ':' => some .colon
  | _ => none

/-- The mark at the start of the text `c :: rest`, and the number of characters that it takes of
`rest`; none if nobody reads on behind it. -/
def firstMark (c : Char) (rest : List Char) : Mark × Option Nat :=
  match punctuation? c with
  | some m => (m, some 0)
  | none =>
    if c = '"' then
      let q := Quoted.ofText rest
      (.string q, q.width.toOption)
    else if startsNumber c then
      let n := Numeral.ofText (c :: rest)
      (.number n, n.width.toOption.map (· - 1))
    else match literalWord? c with
      | some (w, l) =>
        match follow w (c :: rest) with
        | .ok () => (.literal (.ok l), some (w.length - 1))
        | .error f => (.literal (.error f), none)
      | none => (.stray, none)

/-- The marks of a text. -/
def marks : List Char → List Mark
  | [] => []
  | c :: rest =>
    if isSpace c then marks rest
    else match firstMark c rest with
      | (m, none) => [m]
      | (m, some n) => m :: marks (rest.drop n)
termination_by cs => cs.length
decreasing_by all_goals simp only [List.length_drop, List.length_cons]; omega

end StackEditor.Json
