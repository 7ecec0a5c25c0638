import StackEditor.Proofs.Config.Layers

/-!
# Keys that no setting has

`Schema.known` takes out of a value, at every level, the members that no field of the schema asks
for. An override with them and the one without them are read alike, on top of any value
(`Schema.accept_mergeMember_known`).
-/

namespace StackEditor.Json

open SessionConfig (mergeMember)

mutual

/-- A value where no record is asked for: no member in it is known. -/
def bare : Json → Json
  | .array js => .array (bareAll js)
  | .object _ => .object []
  | j => j

def bareAll : List Json → List Json
  | [] => []
  | j :: js => j.bare :: bareAll js

end

mutual

/-- The value without the members that no field asks for. In a choice, the key of a member names the
variant. -/
def Schema.known : Schema → Json → Json
  | .optional s, j => s.known j
  | .choice _, j => j
  | .list s, j =>
    match j with
    | .array js => .array (js.map s.known)
    | j => j.bare
  | .record fs, j =>
    match j with
    | .array js => .array (fs.knownRow js)
    | .object ms => .object (ms.filterMap fun (key, j) => (fs.known? key).map fun f => (key, f j))
    | j => j
  | .bool, j => j.bare
  | .natural _, j => j.bare
  | .string, j => j.bare
  | .identifier, j => j.bare

/-- The items that stand for the fields of a record, and bare ones behind them. -/
def Fields.knownRow : Fields → List Json → List Json
  | .none, js => bareAll js
  | .field _ s _ rest, js =>
    match js with
    | [] => []
    | j :: js => s.known j :: rest.knownRow js

/-- What becomes of a member with this name, if a field asks for it. -/
def Fields.known? (name : String) : Fields → Option (Json → Json)
  | .none => none
  | .field n s _ rest => if n = name then some s.known else rest.known? name

end

/-! ## The members that are left -/

/-- The members that fields ask for. -/
def Fields.knownMembers (fs : Fields) (ms : List (String × Json)) : List (String × Json) :=
  ms.filterMap fun (key, j) => (fs.known? key).map fun f => (key, f j)

/-- In an object for a record the known members are left. -/
theorem Schema.known_object (fs : Fields) (ms : List (String × Json)) :
    (Schema.record fs).known (.object ms) = .object (fs.knownMembers ms) := by
  rw [Schema.known]
  rfl

/-- A member is left, changed inside, if its key is known. -/
theorem Fields.knownMembers_cons (fs : Fields) (key : String) (j : Json)
    (ms : List (String × Json)) :
    fs.knownMembers ((key, j) :: ms) = match fs.known? key with
      | .some f => (key, f j) :: fs.knownMembers ms
      | .none => fs.knownMembers ms := by
  simp only [Fields.knownMembers, List.filterMap_cons]
  cases fs.known? key <;> rfl

/-- The first member that a list has under a key is kept if that key is known. -/
theorem Fields.lookup_knownMembers (fs : Fields) (name : String) :
    ∀ ms : List (String × Json), (fs.knownMembers ms).lookup name =
      (ms.lookup name).bind fun j => (fs.known? name).map fun f => f j
  | [] => rfl
  | (key, j) :: ms => by
    rw [Fields.knownMembers_cons, lookup_cons_eq_ite]
    by_cases hname : name = key
    · subst hname
      cases hf : fs.known? name with
      | none => simp [fs.lookup_knownMembers name ms, hf]
      | some f => simp
    · rw [if_neg hname, ← fs.lookup_knownMembers name ms]
      cases fs.known? key with
      | none => rfl
      | some f => exact (lookup_cons_eq_ite ..).trans (if_neg hname)

/-- The keys that are left are some of the old ones, in their order. -/
theorem Fields.keys_knownMembers_sublist (fs : Fields) :
    ∀ ms : List (String × Json), ((fs.knownMembers ms).map (·.1)).Sublist (ms.map (·.1))
  | [] => .refl _
  | (key, j) :: ms => by
    rw [Fields.knownMembers_cons]
    cases fs.known? key with
    | none => exact (fs.keys_knownMembers_sublist ms).cons _
    | some f => exact (fs.keys_knownMembers_sublist ms).cons_cons _

/-- A member that is known is changed by the form of its field. -/
theorem Fields.known?_eq (name : String) : ∀ (fs : Fields),
    fs.known? name = (fs.schema? name).map Schema.known
  | .none => rfl
  | .field n s missing rest => by
    rw [Fields.known?, Fields.schema?, Fields.known?_eq name rest]
    split <;> rfl

/-! ## Reading what is left -/

/-- Nothing inside an array or an object matters if both are refused. -/
theorem Schema.accept_mergeMember_bare {s : Schema} (harray : ∀ js, s.accept (.array js) = none)
    (hobject : ∀ ms, s.accept (.object ms) = none) (old : Option Json) (j : Json) :
    s.accept (mergeMember old j.bare) = s.accept (mergeMember old j) := by
  cases j with
  | array js =>
    rw [bare, mergeMember_of_not_object (by simp), mergeMember_of_not_object (by simp), harray,
      harray]
  | object patch =>
    obtain ⟨ms, hms⟩ := exists_mergeMember_eq_object patch old
    obtain ⟨ms', hms'⟩ := exists_mergeMember_eq_object [] old
    rw [bare, hms, hms', hobject, hobject]
  | _ => rw [bare] <;> simp

/-- Only `null` is `null` without the members that are not known. -/
theorem Schema.known_eq_null : ∀ {s : Schema} {j : Json}, s.known j = .null ↔ j = .null
  | .optional s, j => by rw [Schema.known, s.known_eq_null]
  | .choice _, j => by rw [Schema.known]
  | .list s, j => by cases j <;> simp [Schema.known, bare]
  | .record fs, j => by cases j <;> simp [Schema.known]
  | .bool, j | .natural _, j | .string, j | .identifier, j => by
    cases j <;> simp [Schema.known, bare]

/-- Nothing is taken out of a list. -/
theorem isEmpty_bareAll (js : List Json) : (bareAll js).isEmpty = js.isEmpty := by
  cases js <;> rfl

/-- A change that no item shows to `f` does not show in the answers either. -/
theorem mapM_map_of_forall {f : Json → Option Json} {g : Json → Json} : ∀ {js : List Json},
    (∀ j ∈ js, f (g j) = f j) → (js.map g).mapM f = js.mapM f
  | [], _ => rfl
  | j :: js, h => by
    obtain ⟨hj, hjs⟩ := List.forall_mem_cons.mp h
    rw [List.map_cons, List.mapM_cons, List.mapM_cons, hj, mapM_map_of_forall hjs]

mutual

/-- What is not known has no effect on the answer, whatever the value stands on top of. -/
theorem Schema.accept_mergeMember_known : ∀ {s : Schema} (old : Option Json) {j : Json},
    s.namesOnce = true → j.KeysOnce →
    s.accept (mergeMember old (s.known j)) = s.accept (mergeMember old j)
  | .bool, old, j, _, _ | .natural _, old, j, _, _ | .string, old, j, _, _
  | .identifier, old, j, _, _ => by
    rw [Schema.known]
    exact Schema.accept_mergeMember_bare (fun _ => by simp [Schema.accept])
      (fun _ => by simp [Schema.accept]) old j
  | .choice vs, old, j, _, _ => by rw [Schema.known]
  | .optional s, old, j, hs, hj => by
    by_cases hnull : j = .null
    · rw [hnull, Schema.known_eq_null.mpr rfl]
    · rw [Schema.accept_optional (mergeMember_ne_null hnull old),
        Schema.accept_optional (mergeMember_ne_null (mt Schema.known_eq_null.mp hnull) old)]
      exact s.accept_mergeMember_known old hs hj
  | .list s, old, .array js, hs, .array hitems => by
    have hitem : ∀ j ∈ js, s.accept (s.known j) = s.accept j := fun j hj =>
      s.accept_mergeMember_known none hs (hitems j hj)
    rw [Schema.known, mergeMember_of_not_object (by simp), mergeMember_of_not_object (by simp),
      Schema.accept, Schema.accept, mapM_map_of_forall hitem]
  | .list s, old, .object patch, _, _ => by
    obtain ⟨ms, hms⟩ := exists_mergeMember_eq_object patch old
    obtain ⟨ms', hms'⟩ := exists_mergeMember_eq_object [] old
    rw [Schema.known, bare, hms, hms'] <;> simp [Schema.accept]
  | .list s, old, .null, _, _ | .list s, old, .bool _, _, _
  | .list s, old, .number _, _, _ | .list s, old, .string _, _, _ => by
    simp [Schema.known, bare]
  | .record fs, old, .array js, hs, .array hitems => by
    obtain ⟨-, hfs⟩ := Schema.namesOnce_record.mp hs
    rw [Schema.known, mergeMember_of_not_object (by simp), mergeMember_of_not_object (by simp),
      Schema.accept, Schema.accept, fs.acceptRow_known hfs hitems]
  | .record fs, old, .object patch, hs, .object hkeys hmembers => by
    obtain ⟨hnames, hfs⟩ := Schema.namesOnce_record.mp hs
    -- Both patches stand on the same old members, so their members under the names count.
    obtain ⟨ms, hms, hlookup⟩ := exists_mergeMember_object old hkeys
    obtain ⟨ms', hms', hlookup'⟩ := exists_mergeMember_object old
      ((fs.keys_knownMembers_sublist patch).nodup hkeys)
    rw [Schema.known_object, hms, hms', Schema.accept, Schema.accept,
      Fields.acceptMembers_known hnames hfs hmembers (fun name s hs => ?_) hlookup hlookup']
    rw [fs.lookup_knownMembers, fs.known?_eq, hs]
    cases patch.lookup name <;> rfl
  | .record fs, old, .null, _, _ | .record fs, old, .bool _, _, _ | .record fs, old, .number _, _, _
  | .record fs, old, .string _, _, _ => by
    rw [Schema.known] <;> simp

/-- A record that is written as an array is read the same without unknown members. -/
theorem Fields.acceptRow_known : ∀ {fs : Fields} {js : List Json}, fs.namesOnce = true →
    (∀ j ∈ js, j.KeysOnce) → fs.acceptRow (fs.knownRow js) = fs.acceptRow js
  | .none, js, _, _ => by rw [Fields.knownRow, Fields.acceptRow, Fields.acceptRow, isEmpty_bareAll]
  | .field name s missing rest, [], _, _ => by rw [Fields.knownRow]
  | .field name s missing rest, j :: js, hfs, hjs => by
    obtain ⟨hs, hrest⟩ := Fields.namesOnce_field.mp hfs
    obtain ⟨hj, hjs⟩ := List.forall_mem_cons.mp hjs
    have hfirst : s.accept (s.known j) = s.accept j :=
      s.accept_mergeMember_known Option.none hs hj
    rw [Fields.knownRow, Fields.acceptRow, Fields.acceptRow, hfirst, rest.acceptRow_known hrest hjs]

/-- Two patches with the same known members, on top of the same old ones. -/
theorem Fields.acceptMembers_known : ∀ {fs : Fields} {old : String → Option Json}
    {patch patch' ms ms' : List (String × Json)}, fs.names.Nodup → fs.namesOnce = true →
    (∀ x ∈ patch, x.2.KeysOnce) →
    (∀ name s, fs.schema? name = some s → patch'.lookup name = (patch.lookup name).map s.known) →
    (∀ name, ms.lookup name = onTop (old name) (patch.lookup name)) →
    (∀ name, ms'.lookup name = onTop (old name) (patch'.lookup name)) →
    fs.acceptMembers ms' = fs.acceptMembers ms
  | .none, _, _, _, _, _, _, _, _, _, _, _ => rfl
  | .field name s missing rest, old, patch, patch', ms, ms', hnames, hfs, hjs, hknown, hms,
      hms' => by
    obtain ⟨hs, hrest⟩ := Fields.namesOnce_field.mp hfs
    have ih := Fields.acceptMembers_known (List.nodup_cons.mp hnames).2 hrest hjs
      (fun name' s' hs' => hknown name' s' (Fields.schema?_of_rest hnames hs')) hms hms'
    have hfield := hknown name s (by rw [Fields.schema?, if_pos rfl])
    rw [Fields.acceptMembers, Fields.acceptMembers, ih, hms, hms', hfield]
    cases hj : patch.lookup name with
    | none => rfl
    | some j =>
      have hvalue := s.accept_mergeMember_known (old name) hs (hjs _ (mem_of_lookup hj))
      simp only [onTop, Option.map_some, hvalue]

end

end StackEditor.Json
