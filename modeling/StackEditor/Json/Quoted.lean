import StackEditor.Json.Basic
import StackEditor.Text.Hex

/-!
# JSON strings

A string may be needed or not. Where it is needed, its escapes are decoded and must stand for
characters; where it is passed over, only their spelling counts, so that half of a surrogate
pair does no harm there. `Quoted` holds both verdicts on one string.
-/

namespace StackEditor.Json

/-- The character of a one-letter escape. -/
def shortEscape? : Char → Option Char
  | '"' => some '"'
  | '\\' => some '\\'
  | '/' => some '/'
  | 'b' => some '\x08'
  | 'f' => some '\x0c'
  | 'n' => some '\n'
  | 'r' => some '\r'
  | 't' => some '\t'
  | _ => none

/-- The length of a text in UTF-8. -/
def byteCount (cs : List Char) : Nat := cs.foldl (fun n c => n + c.utf8Size) 0

/-- The four hexadecimal digits at the start of the text. Whether there are enough of them is
asked in bytes of UTF-8. -/
def hexUnit (cs : List Char) : Except Fault Nat :=
  if byteCount (cs.take 4) < 4 then .error .cutShort
  else if cs.length < 4 then .error .malformed
  else match Text.hexNumber? (cs.take 4) with
    | some n => .ok n
    | none => .error .malformed

/-- The first half of a surrogate pair. -/
def isLead (n : Nat) : Bool := 0xD800 ≤ n && n ≤ 0xDBFF

/-- The second half of a surrogate pair. -/
def isTrail (n : Nat) : Bool := 0xDC00 ≤ n && n ≤ 0xDFFF

/-- The character of a surrogate pair. -/
def pairedChar (lead trail : Nat) : Char :=
  Char.ofNat ((lead - 0xD800) * 0x400 + (trail - 0xDC00) + 0x10000)

/-- The second half of the pair that starts with `lead`, read behind its first half, and the
character of the pair. -/
def readTrail (lead : Nat) : List Char → Except Fault Char
  | [] => .error .cutShort
  | '\\' :: [] => .error .cutShort
  | '\\' :: 'u' :: rest => do
    let n ← hexUnit rest
    if isTrail n then return pairedChar lead n else throw .malformed
  | _ => .error .malformed

/-- The character of an escape, read behind its backslash, and the number of characters that the
escape takes there. -/
def readEscape : List Char → Except Fault (Char × Nat)
  | [] => .error .cutShort
  | 'u' :: rest => do
    let n ← hexUnit rest
    if isTrail n then throw .malformed
    else if isLead n then return (← readTrail n (rest.drop 4), 11)
    else return (Char.ofNat n, 5)
  | c :: _ =>
    match shortEscape? c with
    | some d => .ok (d, 1)
    | none => .error .malformed

/-- The number of characters that an escape takes behind its backslash, by its spelling alone. -/
def skipEscape : List Char → Except Fault Nat
  | [] => .error .cutShort
  | 'u' :: rest => do
    let _ ← hexUnit rest
    return 5
  | c :: _ => if (shortEscape? c).isSome then .ok 1 else .error .malformed

/-- The characters of a string, read behind its opening quote. -/
def readQuoted : List Char → Except Fault (List Char)
  | [] => .error .cutShort
  | c :: rest =>
    if c = '"' then .ok []
    else if c = '\\' then do
      let (d, n) ← readEscape rest
      return d :: (← readQuoted (rest.drop n))
    else if c.toNat < 0x20 then .error .malformed
    else do return c :: (← readQuoted rest)
termination_by cs => cs.length
decreasing_by all_goals simp only [List.length_drop, List.length_cons]; omega

/-- The number of characters of a string behind its opening quote, the closing one included. -/
def quotedWidth : List Char → Except Fault Nat
  | [] => .error .cutShort
  | c :: rest =>
    if c = '"' then .ok 1
    else if c = '\\' then do
      let n ← skipEscape rest
      return n + 1 + (← quotedWidth (rest.drop n))
    else if c.toNat < 0x20 then .error .malformed
    else do return 1 + (← quotedWidth rest)
termination_by cs => cs.length
decreasing_by all_goals simp only [List.length_drop, List.length_cons]; omega

/-- A string as a text spells it. -/
structure Quoted where
  /-- Its characters, where they are needed. -/
  content : Except Fault String
  /-- Its width behind the opening quote, where it is passed over. -/
  width : Except Fault Nat

/-- The string behind an opening quote. -/
def Quoted.ofText (cs : List Char) : Quoted :=
  ⟨(readQuoted cs).map String.ofList, quotedWidth cs⟩

end StackEditor.Json
