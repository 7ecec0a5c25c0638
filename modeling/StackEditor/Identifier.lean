import StackEditor.Text.Hex

/-!
# Identifiers

Anchors and scheduled tasks are named by 128-bit numbers. Their text form is the usual one of
universally unique identifiers: 32 hexadecimal digits in groups of 8, 4, 4, 4 and 12. Reading
also accepts the digits without hyphens, the grouped form in braces, and the grouped form behind
`urn:uuid:`. Capital and small letters count the same, in the digits as in the words before them.
-/

namespace StackEditor

/-- The sizes of the groups of digits. -/
def uuidGroups : List Nat := [8, 4, 4, 4, 12]

/-- The digits with a hyphen between groups. -/
def hyphenate : List Nat → List Char → List Char
  | [], _ => []
  | [n], cs => cs.take n
  | n :: ns, cs => cs.take n ++ '-' :: hyphenate ns (cs.drop n)

/-- The digits without the hyphens between groups, if the groups have their sizes. -/
def dehyphenate? : List Nat → List Char → Option (List Char)
  | [], cs => if cs = [] then some [] else none
  | [n], cs => if cs.length = n then some cs else none
  | n :: ns, cs =>
    match cs.drop n with
    | '-' :: rest => (dehyphenate? ns rest).map (cs.take n ++ ·)
    | _ => none

/-- The text form of a 128-bit number. -/
def uuidText (n : Nat) : String :=
  String.ofList (hyphenate uuidGroups (Text.hexDigits 32 n))

/-- The digits of a text form, in any of its four spellings. No letter outside ASCII counts as a
capital of `urn:uuid:`. -/
def uuidDigits? (cs : List Char) : Option (List Char) :=
  if cs.length = 32 then some cs
  else if cs.length = 36 then dehyphenate? uuidGroups cs
  else if cs.length = 38 ∧ cs.head? = some '\x7b' ∧ cs.getLast? = some '\x7d' then
    dehyphenate? uuidGroups (cs.drop 1).dropLast
  else if cs.length = 45 ∧ (cs.take 9).map Char.toLower = "urn:uuid:".toList then
    dehyphenate? uuidGroups (cs.drop 9)
  else none

/-- The number with the given text form. -/
def uuidOfText? (text : String) : Option Nat := do
  Text.hexNumber? (← uuidDigits? text.toList)

/-- The name of an anchor: a range that moves with the text it lies on. -/
structure AnchorId where
  number : Nat
  deriving DecidableEq

/-- The name of a scheduled step. -/
structure TaskId where
  number : Nat
  deriving DecidableEq

def AnchorId.label (a : AnchorId) : String := "Anchor(" ++ uuidText a.number ++ ")"

def TaskId.label (t : TaskId) : String := "Task(" ++ uuidText t.number ++ ")"

end StackEditor
