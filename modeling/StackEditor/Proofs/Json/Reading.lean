import StackEditor.Serial.Basic
import StackEditor.Proofs.Json.Spelling

/-!
# Reading a text and accepting its value agree

A typed value is read from a text (`Schema.read`), or the text is parsed first and the value is
accepted (`Schema.accept`). The two never disagree on a text without repeated keys
(`Schema.agrees_of_namesOnce`, `Serial.toOption_parse`): they succeed together, and then with the
same canonical form. Only the fault may differ, so the statements compare `toOption`.

The induction is on the schema, one lemma a constructor. Objects are the one case with an argument
in it. The reader of texts takes the members in the order of the text and puts them in the order
of the record at the end, whereas `accept` asks for the fields one by one. Between the two stands
`Fields.acceptKnown`, which takes the members of a value in their order.
-/

namespace StackEditor.Json

/-! ## Answers without their fault -/

section
variable {α β : Type}

/-- Two steps give a value where both of them do. -/
theorem toOption_bind (x : Except Fault α) (f : α → Except Fault β) :
    (x >>= f).toOption = x.toOption.bind fun a => (f a).toOption := by
  cases x <;> rfl

/-- The fault of an answer does not change with its value. -/
theorem toOption_map (x : Except Fault α) (f : α → β) : (x.map f).toOption = x.toOption.map f := by
  cases x <;> rfl

@[simp] theorem toOption_ok (a : α) : (Except.ok a : Except Fault α).toOption = some a := rfl

@[simp] theorem toOption_error (f : Fault) : (Except.error f : Except Fault α).toOption = none :=
  rfl

@[simp] theorem toOption_orUnfitting (a : Option α) : (orUnfitting a).toOption = a := by
  cases a <;> rfl

end

/-! ## Schemas whose records name each field once -/

/-- The names of a record's fields. -/
def Fields.names : Fields → List String
  | .none => []
  | .field name _ _ rest => name :: rest.names

mutual

/-- No record in the schema has two fields of one name. -/
def Schema.namesOnce : Schema → Bool
  | .optional s => s.namesOnce
  | .list s => s.namesOnce
  | .choice vs => vs.namesOnce
  | .record fs => decide fs.names.Nodup && fs.namesOnce
  | _ => true

def Variants.namesOnce : Variants → Bool
  | .none => true
  | .plain _ rest => rest.namesOnce
  | .tagged _ s rest => s.namesOnce && rest.namesOnce

def Fields.namesOnce : Fields → Bool
  | .none => true
  | .field _ s _ rest => s.namesOnce && rest.namesOnce

end

/-- The fields of a record have names of their own, and so have those of records inside. -/
theorem Schema.namesOnce_record {fs : Fields} :
    (Schema.record fs).namesOnce = true ↔ fs.names.Nodup ∧ fs.namesOnce = true := by
  simp [Schema.namesOnce]

/-- Records inside a field and inside the later fields. -/
theorem Fields.namesOnce_field {name : String} {s : Schema} {missing : Missing} {rest : Fields} :
    (Fields.field name s missing rest).namesOnce = true ↔
      s.namesOnce = true ∧ rest.namesOnce = true := by
  simp [Fields.namesOnce]

/-- The form of the field with this name. -/
def Fields.schema? (name : String) : Fields → Option Schema
  | .none => .none
  | .field n s _ rest => if n = name then some s else rest.schema? name

/-! ## Agreement -/

/-- Reading a draft of a value and accepting the value come to the same. -/
def Schema.Agrees (s : Schema) : Prop :=
  ∀ ⦃d : Draft⦄ ⦃v : Json⦄, d.Spells v → (s.read d).toOption = s.accept v

/-- The variants with a value agree. -/
def Variants.Agree : Variants → Prop
  | .none => True
  | .plain _ rest => rest.Agree
  | .tagged _ s rest => s.Agrees ∧ rest.Agree

/-- The fields agree. -/
def Fields.Agree : Fields → Prop
  | .none => True
  | .field _ s _ rest => s.Agrees ∧ rest.Agree

/-! ## Values that are one mark -/

/-- A truth value is read and accepted alike. -/
theorem Schema.agrees_bool : Schema.bool.Agrees := by
  intro d v hd
  cases hd with
  | literal w => cases w <;> simp [Schema.read, Schema.accept, Literal.value]
  | _ => simp [Schema.read, Schema.accept]

/-- A number is read and accepted alike, up to the same limit. -/
theorem Schema.agrees_natural (limit : Nat) : (Schema.natural limit).Agrees := by
  intro d v hd
  cases hd with
  | literal w => cases w <;> simp [Schema.read, Schema.accept, Literal.value]
  | @number n m width hnumber hwidth =>
    obtain ⟨number, width'⟩ := n
    cases m with
    | natural k =>
      obtain rfl : number = .ok (.natural k) := hnumber
      by_cases hk : k ≤ limit <;> simp [Schema.read, Schema.accept, hk]
    | decimal neg ds e =>
      obtain rfl : number = .ok (.decimal neg ds e) := hnumber
      simp [Schema.read, Schema.accept]
  | _ => simp [Schema.read, Schema.accept]

/-- The text that a value is, as its draft gives it. -/
theorem toOption_readString {d : Draft} {v : Json} (hd : d.Spells v) :
    (readString d).toOption = v.string? := by
  cases hd with
  | literal w => cases w <;> simp [readString, Literal.value, string?]
  | string hcontent hwidth => simp [readString, hcontent, string?]
  | _ => simp [readString, string?]

/-- A string is read and accepted alike. -/
theorem Schema.agrees_string : Schema.string.Agrees := by
  intro d v hd
  rw [Schema.read, toOption_map, toOption_readString hd]
  cases v <;> simp [Schema.accept, string?]

/-- An identifier is read and accepted alike. -/
theorem Schema.agrees_identifier : Schema.identifier.Agrees := by
  intro d v hd
  rw [Schema.read, toOption_bind, toOption_readString hd]
  cases v with
  | string s =>
    simp only [string?, Option.bind_some, toOption_bind, toOption_orUnfitting, Schema.accept]
    cases uuidOfText? s <;> simp
  | _ => simp [string?, Schema.accept]

/-! ## Values with parts -/

/-- A value that may be null is read and accepted alike if the value is. -/
theorem Schema.Agrees.optional {s : Schema} (h : s.Agrees) : (Schema.optional s).Agrees := by
  intro d v hd
  cases hd with
  | literal w =>
    cases w with
    | null => simp [Schema.read, Schema.accept, Literal.value]
    | bool b =>
      simp only [Schema.read, Schema.accept, Literal.value]
      exact h (.literal (.bool b))
  | number hnumber hwidth => exact h (.number hnumber hwidth)
  | string hcontent hwidth => exact h (.string hcontent hwidth)
  | array hitems => exact h (.array hitems)
  | object hmembers hkeys => exact h (.object hmembers hkeys)

/-- Items are read one by one, as their values are accepted. -/
theorem Schema.Agrees.readAll {s : Schema} (h : s.Agrees) {is : Items} {js : List Json}
    (his : is.Spells js) : (is.readAll s.read).toOption = js.mapM s.accept := by
  induction js generalizing is with
  | nil =>
    cases his with
    | closed => rfl
  | cons v js ih =>
    cases his with
    | item hd his =>
      rw [Items.readAll, toOption_bind, h hd, List.mapM_cons]
      simp only [toOption_bind, ih his]
      rfl

/-- A list is read and accepted alike if its items are. -/
theorem Schema.Agrees.list {s : Schema} (h : s.Agrees) : (Schema.list s).Agrees := by
  intro d v hd
  cases hd with
  | literal w => cases w <;> simp [Schema.read, Schema.accept, Literal.value]
  | array hitems => simp only [Schema.read, Schema.accept, toOption_map, h.readAll hitems]
  | _ => simp [Schema.read, Schema.accept]

/-- Only null is read as null. -/
theorem toOption_readNull {d : Draft} {v : Json} (hd : d.Spells v) :
    (readNull d).toOption = match v with
      | .null => some ()
      | _ => none := by
  cases hd with
  | literal w => cases w <;> simp [readNull, Literal.value]
  | _ => simp [readNull]

/-- The value of a variant is read as it is accepted, by the first variant of its name. -/
theorem Variants.Agree.readTagged (name : String) {d : Draft} {v : Json} (hd : d.Spells v) :
    ∀ {vs : Variants}, vs.Agree → (vs.readTagged name d).toOption = vs.acceptTagged name v
  | .none, _ => by simp [Variants.readTagged, Variants.acceptTagged]
  | .plain n rest, h => by
    by_cases hn : n = name
    · simp only [Variants.readTagged, Variants.acceptTagged, hn, if_true, toOption_bind,
        toOption_readNull hd]
      cases v <;> rfl
    · simp only [Variants.readTagged, Variants.acceptTagged, hn, if_false]
      exact Variants.Agree.readTagged name hd h
  | .tagged n s rest, h => by
    by_cases hn : n = name
    · simp only [Variants.readTagged, Variants.acceptTagged, hn, if_true, toOption_bind, h.1 hd]
      cases s.accept v <;> rfl
    · simp only [Variants.readTagged, Variants.acceptTagged, hn, if_false]
      exact Variants.Agree.readTagged name hd h.2

/-- A choice of variants is read and accepted alike if the values of the variants are. -/
theorem Variants.Agree.choice {vs : Variants} (h : vs.Agree) : (Schema.choice vs).Agrees := by
  intro d v hd
  cases hd with
  | literal w => cases w <;> simp [Schema.read, Schema.accept, Literal.value]
  | number hnumber hwidth => simp [Schema.read, Schema.accept]
  | @string q s width hcontent hwidth =>
    simp only [Schema.read, Schema.accept, hcontent, toOption_bind, toOption_ok, Option.bind_some]
    cases vs.isPlain s <;> rfl
  | array hitems => simp [Schema.read, Schema.accept]
  | object hmembers hkeys =>
    cases hmembers with
    | closed => simp [Schema.read, Schema.accept]
    | @member k key width d v ms xs hkey hwidth hd hms =>
      simp only [Schema.read, hkey, toOption_bind, toOption_ok, Option.bind_some,
        h.readTagged key hd]
      cases hms with
      | closed => simp [Schema.accept, Members.finish]
      | member => simp [Schema.accept, Members.finish]

/-! ## Records that are written as arrays -/

/-- The fields that are found, if nothing follows them. -/
def rowEnd (r : List (String × Json) × Items) : Option (List (String × Json)) := do
  r.2.finish.toOption
  return r.1

/-- A record that is written as an array is read as its values are accepted, in the order of the
fields. -/
theorem Fields.Agree.readRow : ∀ {fs : Fields} {is : Items} {js : List Json}, fs.Agree →
    is.Spells js → (fs.readRow is).toOption.bind rowEnd = fs.acceptRow js
  | .none, _, _, _, .closed => rfl
  | .none, _, _, _, .item hd his => rfl
  | .field name s missing rest, _, _, h, .closed => by
    rw [Fields.readRow, Fields.acceptRow, ← h.2.readRow .closed]
    simp only [toOption_bind, toOption_orUnfitting, pure_eq_ok, toOption_ok, rowEnd,
      Option.bind_eq_bind, Option.bind_assoc, Option.bind_some, Option.pure_def]
  | .field name s missing rest, _, _, h, .item hd his => by
    rw [Fields.readRow, Fields.acceptRow, ← h.2.readRow his, ← h.1 hd]
    simp only [toOption_bind, pure_eq_ok, toOption_ok, rowEnd, Option.bind_eq_bind,
      Option.bind_assoc, Option.bind_some, Option.pure_def]

/-! ## Records that are written as objects -/

/-- The reader for a key is that of the field of this name. -/
theorem Fields.reader_eq (name : String) : ∀ (fs : Fields),
    fs.reader name = (fs.schema? name).map Schema.read
  | .none => rfl
  | .field n s missing rest => by
    rw [Fields.reader, Fields.schema?, Fields.reader_eq name rest]
    split <;> rfl

/-- A field with the name is the first one or a later one. -/
theorem Fields.schema?_cases {name n : String} {s s' : Schema} {missing : Missing} {rest : Fields}
    (hs : (Fields.field n s' missing rest).schema? name = some s) :
    (n = name ∧ s' = s) ∨ rest.schema? name = some s := by
  by_cases hn : n = name
  · exact .inl ⟨hn, by simpa [Fields.schema?, hn] using hs⟩
  · exact .inr (by simpa [Fields.schema?, hn] using hs)

/-- The form of each field agrees if the fields do. -/
theorem Fields.Agree.of_schema? {name : String} {s : Schema} : ∀ {fs : Fields}, fs.Agree →
    fs.schema? name = some s → s.Agrees
  | .none, _, hs => by simp [Fields.schema?] at hs
  | .field n s' missing rest, h, hs => by
    rcases Fields.schema?_cases hs with ⟨-, rfl⟩ | hs
    · exact h.1
    · exact h.2.of_schema? hs

/-- The members that are fields of the record, each in its canonical form. -/
def Fields.acceptKnown (fs : Fields) : List (String × Json) → Option (List (String × Json))
  | [] => some []
  | (key, j) :: xs =>
    match fs.schema? key with
    | .none => fs.acceptKnown xs
    | some s => do return (key, ← s.accept j) :: (← fs.acceptKnown xs)

/-- The reader of texts collects the members that are accepted, behind those it has `seen`. -/
theorem Fields.Agree.collect {fs : Fields} (h : fs.Agree) :
    ∀ {ms : Members} {xs seen : List (String × Json)}, ms.Spells xs → (xs.map (·.1)).Nodup →
      (∀ x ∈ xs, seen.lookup x.1 = .none) →
      (ms.collect fs.reader seen).toOption = (fs.acceptKnown xs).map (seen ++ ·)
  | _, _, seen, .closed, _, _ => by simp [Members.collect, Fields.acceptKnown]
  | _, _, seen, @Members.Spells.member k key width d v ms xs hkey hwidth hd hms, hkeys, hseen => by
    obtain ⟨hnew, hxs⟩ := List.nodup_cons.mp hkeys
    obtain ⟨hkeyNew, hxsNew⟩ := List.forall_mem_cons.mp hseen
    simp only [Members.collect, hkey, toOption_bind, toOption_ok, Option.bind_some,
      Fields.reader_eq, Fields.acceptKnown]
    cases hs : fs.schema? key with
    | none =>
      simp only [Option.map_none, toOption_bind, hd.skip, toOption_ok, Option.bind_some]
      simpa only [Fields.reader_eq] using h.collect hms hxs hxsNew
    | some s =>
      have hagree := h.of_schema? hs hd
      simp only [Option.map_some, hkeyNew, Option.isSome_none, Bool.false_eq_true, if_false,
        toOption_bind, hagree]
      cases hv : s.accept v with
      | none => simp
      | some v' =>
        -- What is seen now has one key more, and that one does not come again.
        have hrest : ∀ x ∈ xs, (seen ++ [(key, v')]).lookup x.1 = .none := by
          intro x hx
          have hne : x.1 ≠ key := fun heq => hnew (List.mem_map.mpr ⟨x, hx, heq⟩)
          simp [List.lookup_append, hxsNew x hx, hne]
        have ih := h.collect hms hxs hrest
        simp only [Fields.reader_eq] at ih
        simp only [Option.bind_some, ih]
        cases fs.acceptKnown xs <;> simp

/-- A known member is among the accepted ones if it is among the members, and then accepted. -/
theorem Fields.lookup_acceptKnown {fs : Fields} {name : String} {s : Schema}
    (hs : fs.schema? name = some s) : ∀ {xs found : List (String × Json)},
    fs.acceptKnown xs = some found →
      (xs.lookup name).map s.accept = (found.lookup name).map some
  | [], _, h => by
    obtain rfl : [] = _ := by simpa [Fields.acceptKnown] using h
    rfl
  | (key, j) :: xs, found, h => by
    by_cases hkey : name = key
    · subst hkey
      simp only [Fields.acceptKnown, hs, Option.bind_eq_bind, Option.bind_eq_some_iff] at h
      obtain ⟨v, hv, found, -, h⟩ := h
      obtain rfl : (name, v) :: found = _ := by simpa using h
      simp [hv]
    · simp only [Fields.acceptKnown] at h
      split at h
      · rw [List.lookup_cons, beq_eq_false_iff_ne.mpr hkey]
        exact Fields.lookup_acceptKnown hs h
      · simp only [Option.bind_eq_bind, Option.bind_eq_some_iff] at h
        obtain ⟨v, -, found, hrest, h⟩ := h
        obtain rfl : (key, v) :: found = _ := by simpa using h
        rw [List.lookup_cons, List.lookup_cons, beq_eq_false_iff_ne.mpr hkey]
        exact Fields.lookup_acceptKnown hs hrest

/-- A record is refused for a member that its field refuses. -/
theorem Fields.acceptMembers_eq_none {name : String} {s : Schema} {xs : List (String × Json)}
    {j : Json} (hj : xs.lookup name = some j) (hnone : s.accept j = .none) : ∀ {fs : Fields},
    fs.schema? name = some s → fs.acceptMembers xs = .none
  | .none, hs => by simp [Fields.schema?] at hs
  | .field n s' missing rest, hs => by
    rcases Fields.schema?_cases hs with ⟨rfl, rfl⟩ | hs
    · simp [Fields.acceptMembers, hj, hnone]
    · simp only [Fields.acceptMembers, Fields.acceptMembers_eq_none hj hnone hs]
      cases xs.lookup n <;> simp

/-- A member that is known and not accepted is why the members are not. -/
theorem Fields.exists_of_acceptKnown_eq_none {fs : Fields} : ∀ {xs : List (String × Json)},
    fs.acceptKnown xs = .none → ∃ x ∈ xs, ∃ s, fs.schema? x.1 = some s ∧ s.accept x.2 = .none
  | [], h => by simp [Fields.acceptKnown] at h
  | (key, j) :: xs, h => by
    have later (hxs : fs.acceptKnown xs = .none) : ∃ x ∈ (key, j) :: xs, ∃ s,
        fs.schema? x.1 = some s ∧ s.accept x.2 = .none := by
      obtain ⟨x, hx, hs⟩ := Fields.exists_of_acceptKnown_eq_none hxs
      exact ⟨x, .tail _ hx, hs⟩
    cases hs : fs.schema? key with
    | none => exact later (by simpa [Fields.acceptKnown, hs] using h)
    | some s =>
      cases hj : s.accept j with
      | none => exact ⟨(key, j), .head _, s, hs, hj⟩
      | some v =>
        cases hxs : fs.acceptKnown xs with
        | none => exact later hxs
        | some found => simp [Fields.acceptKnown, hs, hj, hxs] at h

/-- Without repeated keys, members are refused if a known one among them is. -/
theorem Fields.acceptMembers_of_acceptKnown_eq_none {fs : Fields} {xs : List (String × Json)}
    (hkeys : (xs.map (·.1)).Nodup) (h : fs.acceptKnown xs = .none) :
    fs.acceptMembers xs = .none := by
  obtain ⟨x, hx, s, hs, hnone⟩ := Fields.exists_of_acceptKnown_eq_none h
  exact Fields.acceptMembers_eq_none (lookup_of_mem hkeys hx) hnone hs

/-- A field that is found is one of the record. -/
theorem Fields.mem_names_of_schema? {name : String} {s : Schema} : ∀ {fs : Fields},
    fs.schema? name = some s → name ∈ fs.names
  | .none, hs => by simp [Fields.schema?] at hs
  | .field n s' missing rest, hs => by
    rcases Fields.schema?_cases hs with ⟨rfl, -⟩ | hs
    · exact .head _
    · exact .tail _ (Fields.mem_names_of_schema? hs)

/-- A later field is looked up past the first one, since it has another name. -/
theorem Fields.schema?_of_rest {name n : String} {s s' : Schema} {missing : Missing}
    {rest : Fields} (hnames : (Fields.field n s' missing rest).names.Nodup)
    (hs : rest.schema? name = some s) : (Fields.field n s' missing rest).schema? name = some s := by
  obtain ⟨hnew, -⟩ := List.nodup_cons.mp hnames
  have hne : n ≠ name := fun heq => hnew (heq ▸ Fields.mem_names_of_schema? hs)
  rw [Fields.schema?, if_neg hne, hs]

/-- Completing what was found is accepting the fields one by one. -/
theorem Fields.complete_eq_acceptMembers {xs found : List (String × Json)} : ∀ {fs : Fields},
    fs.names.Nodup →
    (∀ name s, fs.schema? name = some s →
      (xs.lookup name).map s.accept = (found.lookup name).map some) →
    fs.complete found = fs.acceptMembers xs
  | .none, _, _ => rfl
  | .field name s missing rest, hnames, hfound => by
    have hfield := hfound name s (by simp [Fields.schema?])
    have ih := Fields.complete_eq_acceptMembers (List.nodup_cons.mp hnames).2 fun name' s' hs' =>
      hfound name' s' (Fields.schema?_of_rest hnames hs')
    rw [Fields.complete, Fields.acceptMembers, ih]
    cases hx : xs.lookup name <;> cases hf : found.lookup name <;>
      rw [hx, hf] at hfield
    case none.none => simp
    case none.some => cases hfield
    case some.none => cases hfield
    case some.some j v =>
      have hv : s.accept j = some v := Option.some.inj hfield
      simp [hv]

/-- A record that is written as an object is read as its members are accepted. -/
theorem Fields.Agree.object {fs : Fields} (h : fs.Agree) (hnames : fs.names.Nodup) {ms : Members}
    {xs : List (String × Json)} (hms : ms.Spells xs) (hkeys : (xs.map (·.1)).Nodup) :
    (ms.collect fs.reader []).toOption.bind fs.complete = fs.acceptMembers xs := by
  rw [h.collect hms hkeys (by simp)]
  cases hknown : fs.acceptKnown xs with
  | none => simp [Fields.acceptMembers_of_acceptKnown_eq_none hkeys hknown]
  | some found =>
    exact Fields.complete_eq_acceptMembers hnames fun name s hs =>
      Fields.lookup_acceptKnown hs hknown

/-- A record is read and accepted alike if its fields are, as an array or as an object. -/
theorem Fields.Agree.record {fs : Fields} (h : fs.Agree) (hnames : fs.names.Nodup) :
    (Schema.record fs).Agrees := by
  intro d v hd
  cases hd with
  | literal w => cases w <;> simp [Schema.read, Schema.accept, Literal.value]
  | number hnumber hwidth => simp [Schema.read, Schema.accept]
  | string hcontent hwidth => simp [Schema.read, Schema.accept]
  | array hitems =>
    simp only [Schema.read, Schema.accept, toOption_bind, ← h.readRow hitems]
    cases (fs.readRow _).toOption with
    | none => rfl
    | some r => cases hend : r.2.finish <;> simp [rowEnd, hend]
  | object hmembers hkeys =>
    simp only [Schema.read, Schema.accept, toOption_bind, toOption_orUnfitting, pure_eq_ok,
      toOption_ok, ← h.object hnames hmembers hkeys, Option.map_eq_bind, Option.bind_assoc]
    rfl

/-! ## All schemas -/

mutual

/-- Reading a text and accepting its value come to the same for every form. -/
theorem Schema.agrees_of_namesOnce : ∀ (s : Schema), s.namesOnce = true → s.Agrees
  | .bool, _ => Schema.agrees_bool
  | .natural limit, _ => Schema.agrees_natural limit
  | .string, _ => Schema.agrees_string
  | .identifier, _ => Schema.agrees_identifier
  | .optional s, h => (Schema.agrees_of_namesOnce s h).optional
  | .list s, h => (Schema.agrees_of_namesOnce s h).list
  | .choice vs, h => (Variants.agree_of_namesOnce vs h).choice
  | .record fs, h => by
    obtain ⟨hnames, hfields⟩ := Schema.namesOnce_record.mp h
    exact (Fields.agree_of_namesOnce fs hfields).record hnames

/-- The values of variants are read and accepted alike for every form. -/
theorem Variants.agree_of_namesOnce : ∀ (vs : Variants), vs.namesOnce = true → vs.Agree
  | .none, _ => trivial
  | .plain _ rest, h => Variants.agree_of_namesOnce rest h
  | .tagged _ s rest, h => by
    obtain ⟨hvalue, hrest⟩ : s.namesOnce = true ∧ rest.namesOnce = true := by
      simpa [Variants.namesOnce] using h
    exact ⟨Schema.agrees_of_namesOnce s hvalue, Variants.agree_of_namesOnce rest hrest⟩

/-- Fields are read and accepted alike for every form. -/
theorem Fields.agree_of_namesOnce : ∀ (fs : Fields), fs.namesOnce = true → fs.Agree
  | .none, _ => trivial
  | .field _ s _ rest, h => by
    obtain ⟨hvalue, hrest⟩ := Fields.namesOnce_field.mp h
    exact ⟨Schema.agrees_of_namesOnce s hvalue, Fields.agree_of_namesOnce rest hrest⟩

end

/-- A text that spells a value is read as the value is accepted. -/
theorem Schema.toOption_readText_of_spells {s : Schema} (hs : s.namesOnce = true) {text : String}
    {d : Draft} {v : Json} (hdraft : Draft.ofText text = (d, true)) (hd : d.Spells v) :
    (s.readText text).toOption = s.accept v := by
  rw [Schema.readText, finish, hdraft, ← s.agrees_of_namesOnce hs hd, toOption_bind]
  simp

/-- A text without repeated keys is read as the value that it parses to is accepted. -/
theorem Schema.toOption_readText {s : Schema} (hs : s.namesOnce = true) {text : String} {v : Json}
    (hparse : parse text = .ok v) (hkeys : keysOnce text = true) :
    (s.readText text).toOption = s.accept v := by
  obtain ⟨d, hdraft, hd⟩ := exists_spells_of_parse hparse hkeys
  exact Schema.toOption_readText_of_spells hs hdraft hd

end StackEditor.Json

namespace StackEditor

/-- A text without repeated keys gives the value that is accepted from what it parses to. -/
theorem Serial.toOption_parse (α : Type) [Serial α] (hschema : (Serial.schema α).namesOnce = true)
    {text : String} {v : Json} (hparse : Json.parse text = .ok v)
    (hkeys : Json.keysOnce text = true) :
    (Serial.parse α text).toOption = Serial.accept? α v := by
  rw [Serial.parse, Serial.accept?, Json.toOption_bind,
    Json.Schema.toOption_readText hschema hparse hkeys]
  simp

end StackEditor
