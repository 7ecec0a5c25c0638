import StackEditor.Json.Draft
import StackEditor.Identifier

/-!
# Schemas

A schema describes the JSON form of a type. `Schema.read` takes a value of that form from a text,
`Schema.accept` takes it from a value; both answer with the value in its canonical form, in which
the fields of a record all stand in order and identifiers are spelled in one way. Where a draft
spells a value, the two agree on whether it has the form, but only a text can be malformed.

A record may be written as an object or as the array of its fields. An object may hold other
members too, which are passed over, but none of the record's fields twice.
-/

namespace StackEditor.Json

/-- What becomes of a field that is not there. -/
inductive Missing where
  /-- The value is refused. -/
  | refused
  /-- An object may leave the field out, which means `null`; an array may not. -/
  | null
  /-- The field has this value. -/
  | filled (value : Json)

mutual

/-- The JSON form of a type. -/
inductive Schema where
  | bool
  /-- A natural number, at most the limit. -/
  | natural (limit : Nat)
  | string
  /-- A 128-bit identifier, as text. -/
  | identifier
  /-- A value or `null`. -/
  | optional (value : Schema)
  | list (item : Schema)
  /-- One of several named variants. -/
  | choice (variants : Variants)
  | record (fields : Fields)

/-- The variants of a choice. -/
inductive Variants where
  | none
  /-- A variant without a value, written as its name. -/
  | plain (name : String) (rest : Variants)
  /-- A variant with a value, written as an object with one member. -/
  | tagged (name : String) (value : Schema) (rest : Variants)

/-- The fields of a record, in order. -/
inductive Fields where
  | none
  | field (name : String) (value : Schema) (missing : Missing) (rest : Fields)

end

/-! ## Walking over members and items -/

/-- The values of the members that are `known`, as they come. A known key may come once. -/
def Members.collect (known : String → Option (Draft → Except Fault Json))
    (seen : List (String × Json)) : Members → Except Fault (List (String × Json))
  | .closed => .ok seen
  | .cut f => .error f
  | .keyless d => .error (keyFault d)
  | .member k d ms => do
    let key ← k.content
    match known key with
    | none =>
      d.skip
      ms.collect known seen
    | some read =>
      if (seen.lookup key).isSome then throw .unfitting
      else
        let v ← read d
        ms.collect known (seen ++ [(key, v)])

/-- The values of all items. -/
def Items.readAll (read : Draft → Except Fault Json) : Items → Except Fault (List Json)
  | .closed => .ok []
  | .cut f => .error f
  | .item d is => do
    let v ← read d
    return v :: (← is.readAll read)

/-- Nothing but the closing bracket follows. -/
def Items.finish : Items → Except Fault Unit
  | .closed => .ok ()
  | .cut f => .error f
  | .item _ _ => .error .malformed

/-- Nothing but the closing brace follows. -/
def Members.finish : Members → Except Fault Unit
  | .closed => .ok ()
  | .cut f => .error f
  | _ => .error .malformed

/-- The value of a field that an array leaves out. -/
def Missing.inArray : Missing → Option Json
  | filled j => some j
  | _ => none

/-- The value of a field that an object leaves out. -/
def Missing.inObject : Missing → Option Json
  | refused => none
  | null => some .null
  | filled j => some j

/-- The fields of a record with the values that were found, or with the values that stand for
missing ones. -/
def Fields.complete (found : List (String × Json)) : Fields → Option (List (String × Json))
  | .none => some []
  | .field name _ missing rest => do
    let v ← (found.lookup name).or missing.inObject
    return (name, v) :: (← rest.complete found)

/-- An answer, or the fault of a value that does not fit. -/
def orUnfitting : Option α → Except Fault α
  | some a => .ok a
  | none => .error .unfitting

/-! ## Reading a text -/

/-- A `null`. -/
def readNull : Draft → Except Fault Unit
  | .literal (.ok .null) => .ok ()
  | d => .error d.mismatch

/-- A text. -/
def readString : Draft → Except Fault String
  | .string q => q.content
  | d => .error d.mismatch

mutual

/-- The value of the given form that the draft spells. -/
def Schema.read : Schema → Draft → Except Fault Json
  | .bool, d =>
    match d with
    | .literal (.ok (.bool b)) => .ok (.bool b)
    | d => .error d.mismatch
  | .natural limit, d =>
    match d with
    | .number ⟨.ok (.natural n), _⟩ => if n ≤ limit then .ok (natural n) else .error .unfitting
    | d => .error d.mismatch
  | .string, d => (readString d).map .string
  | .identifier, d => do
    let n ← orUnfitting (uuidOfText? (← readString d))
    return .string (uuidText n)
  | .optional s, d =>
    match d with
    | .literal (.ok .null) => .ok .null
    | d => s.read d
  | .list s, d =>
    match d with
    | .array is => (is.readAll s.read).map .array
    | d => .error d.mismatch
  | .choice vs, d =>
    match d with
    | .string q => do
      if vs.isPlain (← q.content) then return .string (← q.content) else throw .unfitting
    | .object (.member k d ms) => do
      let key ← k.content
      let v ← vs.readTagged key d
      ms.finish
      return v
    | .object (.keyless d) => .error (keyFault d)
    | .object (.cut f) => .error f
    | .absent => .error .cutShort
    | _ => .error .malformed
  | .record fs, d =>
    match d with
    | .array is => do
      let (found, rest) ← fs.readRow is
      rest.finish
      return .object found
    | .object ms => do
      let found ← ms.collect fs.reader []
      return .object (← orUnfitting (fs.complete found))
    | d => .error d.mismatch

/-- A variant without a value has this name. -/
def Variants.isPlain (name : String) : Variants → Bool
  | .none => false
  | .plain n rest => n = name || rest.isPlain name
  | .tagged _ _ rest => rest.isPlain name

/-- The variant with this name and the value that the draft spells. A variant without a value has
`null`. -/
def Variants.readTagged (name : String) (d : Draft) : Variants → Except Fault Json
  | .none => .error .unfitting
  | .plain n rest =>
    if n = name then do
      readNull d
      return .string name
    else rest.readTagged name d
  | .tagged n s rest =>
    if n = name then do return .object [(name, ← s.read d)]
    else rest.readTagged name d

/-- The reader of the field with this name. -/
def Fields.reader (name : String) : Fields → Option (Draft → Except Fault Json)
  | .none => none
  | .field n s _ rest => if n = name then some s.read else rest.reader name

/-- The fields of a record that is written as an array, and the items behind them. -/
def Fields.readRow (is : Items) : Fields → Except Fault (List (String × Json) × Items)
  | .none => .ok ([], is)
  | .field name s missing rest =>
    match is with
    | .closed => do
      let v ← orUnfitting missing.inArray
      let (found, is) ← rest.readRow .closed
      return ((name, v) :: found, is)
    | .cut f => .error f
    | .item d is => do
      let v ← s.read d
      let (found, is) ← rest.readRow is
      return ((name, v) :: found, is)

end

/-- The value of the given form that a text spells. -/
def Schema.readText (s : Schema) (text : String) : Except Fault Json :=
  finish s.read text

/-! ## Accepting a value -/

mutual

/-- The canonical form of a value of the given form. -/
def Schema.accept : Schema → Json → Option Json
  | .bool, j =>
    match j with
    | .bool b => some (.bool b)
    | _ => none
  | .natural limit, j =>
    match j with
    | .number (.natural n) => if n ≤ limit then some (natural n) else none
    | _ => none
  | .string, j =>
    match j with
    | .string s => some (.string s)
    | _ => none
  | .identifier, j =>
    match j with
    | .string s => (uuidOfText? s).map fun n => .string (uuidText n)
    | _ => none
  | .optional s, j =>
    match j with
    | .null => some .null
    | j => s.accept j
  | .list s, j =>
    match j with
    | .array js => (js.mapM s.accept).map .array
    | _ => none
  | .choice vs, j =>
    match j with
    | .string name => if vs.isPlain name then some (.string name) else none
    | .object [(name, j)] => vs.acceptTagged name j
    | _ => none
  | .record fs, j =>
    match j with
    | .array js => (fs.acceptRow js).map .object
    | .object ms => (fs.acceptMembers ms).map .object
    | _ => none

/-- The variant with this name and value. -/
def Variants.acceptTagged (name : String) (j : Json) : Variants → Option Json
  | .none => none
  | .plain n rest =>
    if n = name then
      match j with
      | .null => some (.string name)
      | _ => none
    else rest.acceptTagged name j
  | .tagged n s rest =>
    if n = name then (s.accept j).map fun v => .object [(name, v)]
    else rest.acceptTagged name j

/-- The fields of a record that is written as an array. -/
def Fields.acceptRow (js : List Json) : Fields → Option (List (String × Json))
  | .none => if js.isEmpty then some [] else none
  | .field name s missing rest =>
    match js with
    | [] => do
      let v ← missing.inArray
      return (name, v) :: (← rest.acceptRow [])
    | j :: js => do
      let v ← s.accept j
      return (name, v) :: (← rest.acceptRow js)

/-- The fields of a record that is written as an object. -/
def Fields.acceptMembers (ms : List (String × Json)) : Fields → Option (List (String × Json))
  | .none => some []
  | .field name s missing rest => do
    let v ← match ms.lookup name with
      | some j => s.accept j
      | none => missing.inObject
    return (name, v) :: (← rest.acceptMembers ms)

end

end StackEditor.Json
