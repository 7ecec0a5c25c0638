import StackEditor.Text.CharClass

/-!
# Blanks

The characters with the Unicode property White_Space. `trim` takes them off both ends of a text.
-/

namespace StackEditor.Text

/-- Characters with the property White_Space. -/
def blank : CharClass where
  ranges := [
    (0x9, 0xd), (0x20, 0x20), (0x85, 0x85), (0xa0, 0xa0), (0x1680, 0x1680), (0x2000, 0x200a),
    (0x2028, 0x2029), (0x202f, 0x202f), (0x205f, 0x205f), (0x3000, 0x3000)]

/-- White space of any script. -/
def isBlank (c : Char) : Bool :=
  blank.holds c

/-- The text without the blanks at its end. -/
def dropEndBlanks (cs : List Char) : List Char :=
  (cs.reverse.dropWhile isBlank).reverse

/-- The text without the blanks at its start and its end. -/
def trimBlanks (cs : List Char) : List Char :=
  dropEndBlanks (cs.dropWhile isBlank)

/-- The text without the blanks at its start and its end. -/
def trim (text : String) : String :=
  String.ofList (trimBlanks text.toList)

end StackEditor.Text
