import StackEditor.Json.Mark

/-!
# Drafts of JSON values

A draft is the tree that a text spells, flaws included: each flaw stands in the tree at its own
place. Every reader walks the draft from left to right and stops at the first flaw that concerns
it, so all of them agree on what the text is and differ only in what they ask of it.

Three readers share this module. `Draft.value` takes any value and bounds the nesting,
`Draft.skip` passes a value over, and `Draft.mismatch` names the fault of a value that is not of
the kind that is asked for. `Json.Schema` adds the reader that asks for a given form.
-/

namespace StackEditor.Json

mutual

/-- A value as a text spells it. -/
inductive Draft where
  /-- The text ends where the value should start. -/
  | absent
  /-- No value starts here. -/
  | stray
  | literal (word : Except Fault Literal)
  | number (n : Numeral)
  | string (q : Quoted)
  | array (items : Items)
  | object (members : Members)

/-- The items of an array from some place on. -/
inductive Items where
  | closed
  /-- Neither a comma nor the closing bracket follows. -/
  | cut (fault : Fault)
  | item (first : Draft) (rest : Items)

/-- The members of an object from some place on. -/
inductive Members where
  | closed
  /-- Neither a comma nor the closing brace follows. -/
  | cut (fault : Fault)
  /-- Something other than a string stands where a key should. -/
  | keyless (found : Draft)
  /-- A member. If the colon is missing, its value is `absent` or `stray`. -/
  | member (key : Quoted) (value : Draft) (rest : Members)

end

/-! ## From marks to drafts -/

/-- The draft of a value that is one mark. Brackets and separators start no value. -/
def Mark.leaf : Mark → Draft
  | .literal w => .literal w
  | .number n => .number n
  | .string q => .string q
  | _ => .stray

mutual

/-- The value at the start of the marks and the marks behind it. Each level of the recursion takes
a mark, so as many levels as there are marks suffice. -/
def draftOf : Nat → List Mark → Draft × List Mark
  | 0, ms => (.absent, ms)
  | _ + 1, [] => (.absent, [])
  | n + 1, m :: ms =>
    match m with
    | .openArray =>
      match ms with
      | [] => (.array (.cut .cutShort), [])
      | .closeArray :: ms => (.array .closed, ms)
      | ms =>
        let (d, rest) := draftOf n ms
        let (is, rest) := moreItems n rest
        (.array (.item d is), rest)
    | .openObject =>
      match ms with
      | .closeObject :: ms => (.object .closed, ms)
      | ms =>
        let (xs, rest) := memberOf n ms
        (.object xs, rest)
    | m => (m.leaf, ms)

/-- The items behind an item. -/
def moreItems : Nat → List Mark → Items × List Mark
  | 0, ms => (.cut .cutShort, ms)
  | _ + 1, [] => (.cut .cutShort, [])
  | n + 1, m :: ms =>
    match m with
    | .closeArray => (.closed, ms)
    | .comma =>
      let (d, rest) := draftOf n ms
      let (is, rest) := moreItems n rest
      (.item d is, rest)
    | _ => (.cut .malformed, ms)

/-- The members from a key on. -/
def memberOf : Nat → List Mark → Members × List Mark
  | 0, ms => (.cut .cutShort, ms)
  | n + 1, ms =>
    match ms with
    | [.string q] => (.member q .absent (.cut .cutShort), [])
    | .string q :: .colon :: ms =>
      let (d, rest) := draftOf n ms
      let (xs, rest) := moreMembers n rest
      (.member q d xs, rest)
    | .string q :: ms => (.member q .stray (.cut .malformed), ms)
    | ms =>
      let (d, rest) := draftOf n ms
      (.keyless d, rest)

/-- The members behind a member. -/
def moreMembers : Nat → List Mark → Members × List Mark
  | 0, ms => (.cut .cutShort, ms)
  | _ + 1, [] => (.cut .cutShort, [])
  | n + 1, m :: ms =>
    match m with
    | .closeObject => (.closed, ms)
    | .comma => memberOf n ms
    | _ => (.cut .malformed, ms)

end

/-- The draft of a text, and whether nothing but space follows it. -/
def Draft.ofText (text : String) : Draft × Bool :=
  let ms := marks text.toList
  let (d, rest) := draftOf (ms.length + 1) ms
  (d, rest.isEmpty)

/-! ## Readers -/

/-- The fault of a value that should be of another kind: its own flaw, if it has one that shows
before its kind is known, and otherwise that it does not fit. -/
def Draft.mismatch : Draft → Fault
  | absent => .cutShort
  | stray => .malformed
  | literal (.error f) => f
  | number ⟨.error f, _⟩ => f
  | string ⟨.error f, _⟩ => f
  | _ => .unfitting

/-- The fault of an object in which `found` stands where a key should. -/
def keyFault : Draft → Fault
  | .absent => .cutShort
  | _ => .malformed

mutual

/-- Passes a value over: only its spelling must be right. -/
def Draft.skip : Draft → Except Fault Unit
  | .absent => .error .cutShort
  | .stray => .error .malformed
  | .literal w => w.map fun _ => ()
  | .number n => n.width.map fun _ => ()
  | .string q => q.width.map fun _ => ()
  | .array is => is.skip
  | .object ms => ms.skip

def Items.skip : Items → Except Fault Unit
  | .closed => .ok ()
  | .cut f => .error f
  | .item d is => do
    d.skip
    is.skip

def Members.skip : Members → Except Fault Unit
  | .closed => .ok ()
  | .cut f => .error f
  | .keyless d => .error (keyFault d)
  | .member k d ms => do
    let _ ← k.width
    d.skip
    ms.skip

end

/-- The value of a literal. -/
def Literal.value : Literal → Json
  | null => .null
  | bool b => .bool b

mutual

/-- The value of a draft, nested at most `levels` deep. Of two members with one key, the later
counts. -/
def Draft.value (levels : Nat) : Draft → Except Fault Json
  | .absent => .error .cutShort
  | .stray => .error .malformed
  | .literal w => w.map Literal.value
  | .number n => n.number.map .number
  | .string q => q.content.map .string
  | .array is =>
    match levels with
    | 0 => .error .malformed
    | n + 1 => (is.values n).map .array
  | .object ms =>
    match levels with
    | 0 => .error .malformed
    | n + 1 => (ms.values n).map .object

def Items.values (levels : Nat) : Items → Except Fault (List Json)
  | .closed => .ok []
  | .cut f => .error f
  | .item d is => do
    let v ← d.value levels
    return v :: (← is.values levels)

def Members.values (levels : Nat) : Members → Except Fault (List (String × Json))
  | .closed => .ok []
  | .cut f => .error f
  | .keyless d => .error (keyFault d)
  | .member k d ms => do
    let key ← k.content
    let v ← d.value levels
    let rest ← ms.values levels
    return if (rest.lookup key).isSome then rest else (key, v) :: rest

end

/-- The deepest nesting of a value. -/
def maxLevels : Nat := 127

/-- A reader's answer for a whole text, where nothing may follow the value. -/
def finish (read : Draft → Except Fault α) (text : String) : Except Fault α := do
  let (d, whole) := Draft.ofText text
  let a ← read d
  if whole then return a else throw .malformed

/-- The value of a JSON text. -/
def parse (text : String) : Except Fault Json :=
  finish (·.value maxLevels) text

end StackEditor.Json
