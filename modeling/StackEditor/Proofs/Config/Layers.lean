import StackEditor.Proofs.Config.Merge
import StackEditor.Proofs.Json.Canonical

/-!
# Layers of settings

A form of settings has records around plain values, which no override gets into
(`Schema.Layered`). What such a form accepts is canonical, with every field in it. So an override
that is applied again finds under each key what it has put there, or what was there before and was
kept: it is accepted again and gives the same (`Schema.Layered.accept_again`).

`onTop` tells the member under a key of a merged object from the two members that were there.
-/

namespace StackEditor.Json

open SessionConfig (merge mergeMember mergeMembers lookup_mergeMembers)

/-! ## Merged values -/

/-- What is not an object takes the place of any value. -/
theorem merge_of_not_object {j : Json} (hj : ∀ ms, j ≠ .object ms) (base : Json) :
    merge base j = j := by
  cases j with
  | object ms => exact absurd rfl (hj ms)
  | _ => rw [merge]; simp

/-- What is not an object takes the place of a member, or of none. -/
theorem mergeMember_of_not_object {j : Json} (hj : ∀ ms, j ≠ .object ms) :
    ∀ old : Option Json, mergeMember old j = j
  | none => rfl
  | some base => merge_of_not_object hj base

/-- An object on top of any value is an object, whatever members it has. -/
theorem exists_mergeMember_eq_object (patch : List (String × Json)) :
    ∀ old : Option Json, ∃ ms, mergeMember old (.object patch) = .object ms
  | none => ⟨patch, rfl⟩
  | some (.object ms) => ⟨mergeMembers ms patch, by rw [mergeMember, merge]⟩
  | some .null | some (.bool _) | some (.number _) | some (.string _) | some (.array _) =>
    ⟨patch, by rw [mergeMember, merge]; simp⟩

/-- Only `null` makes a member `null`. -/
theorem mergeMember_ne_null {j : Json} (hj : j ≠ .null) (old : Option Json) :
    mergeMember old j ≠ .null := by
  cases j with
  | object patch =>
    obtain ⟨ms, hms⟩ := exists_mergeMember_eq_object patch old
    rw [hms]
    simp
  | null => exact absurd rfl hj
  | _ => rw [mergeMember_of_not_object (by simp)]; exact hj

/-- What stands under a key behind an override of it. -/
def onTop (old : Option Json) : Option Json → Option Json
  | some j => some (mergeMember old j)
  | none => old

/-- Under each key, merging puts the member of the override on top of the old one. -/
theorem lookup_mergeMembers_eq_onTop (name : String) {patch : List (String × Json)}
    (hkeys : (patch.map (·.1)).Nodup) (ms : List (String × Json)) :
    (mergeMembers ms patch).lookup name = onTop (ms.lookup name) (patch.lookup name) := by
  rw [lookup_mergeMembers name hkeys]
  cases patch.lookup name <;> rfl

/-- An object on top of any value is an object. Under each key it has the old member, if there was
one, and the override on top of it. -/
theorem exists_mergeMember_object (old : Option Json) {patch : List (String × Json)}
    (hkeys : (patch.map (·.1)).Nodup) :
    ∃ ms, mergeMember old (.object patch) = .object ms ∧
      ∀ name, ms.lookup name = onTop (old.bind (member? name)) (patch.lookup name) := by
  have halone (name : String) : patch.lookup name = onTop none (patch.lookup name) := by
    cases patch.lookup name <;> rfl
  rcases old with _ | old
  · exact ⟨patch, rfl, halone⟩
  · cases old with
    | object ms =>
      exact ⟨mergeMembers ms patch, by rw [mergeMember, merge], fun name =>
        lookup_mergeMembers_eq_onTop name hkeys ms⟩
    | _ => exact ⟨patch, by rw [mergeMember, merge]; simp, halone⟩

/-! ## Forms of settings -/

/-- What is accepted is taken as it is, and it is no object. So an override of it replaces it. -/
def Schema.Plain (s : Schema) : Prop :=
  ∀ ⦃j v : Json⦄, s.accept j = some v → v = j ∧ s.Canonical v ∧ ∀ ms, j ≠ .object ms

mutual

/-- A form that has records around plain values, where each record names its fields once and fills
in canonical values for those that are missing. -/
inductive Schema.Layered : Schema → Prop
  | plain {s : Schema} (h : s.Plain) : Schema.Layered s
  | optional {s : Schema} (h : Schema.Layered s) : Schema.Layered (.optional s)
  | record {fs : Fields} (hnames : fs.names.Nodup) (h : Fields.Layered fs) :
      Schema.Layered (.record fs)

inductive Fields.Layered : Fields → Prop
  | none : Fields.Layered .none
  | field {name : String} {s : Schema} {missing : Missing} {rest : Fields} (h : Schema.Layered s)
      (hmissing : ∀ {v}, missing.inObject = some v → s.Canonical v) (hrest : Fields.Layered rest) :
      Fields.Layered (.field name s missing rest)

end

/-- Truth values are plain. -/
theorem Schema.plain_bool : Schema.bool.Plain := by
  intro j v h
  cases j with
  | bool b =>
    obtain rfl : Json.bool b = v := by simpa [Schema.accept] using h
    exact ⟨rfl, .bool b, nofun⟩
  | _ => simp [Schema.accept] at h

/-- Numbers up to a limit within 64 bits are plain. -/
theorem Schema.plain_natural {limit : Nat} (hlimit : limit ≤ maxWord64) :
    (Schema.natural limit).Plain := by
  intro j v h
  cases j with
  | number n =>
    cases n with
    | natural n =>
      obtain ⟨hn, rfl⟩ : n ≤ limit ∧ Json.natural n = v := by simpa [Schema.accept] using h
      exact ⟨rfl, .natural hn hlimit, nofun⟩
    | decimal => simp [Schema.accept] at h
  | _ => simp [Schema.accept] at h

/-- Strings are plain. -/
theorem Schema.plain_string : Schema.string.Plain := by
  intro j v h
  cases j with
  | string s =>
    obtain rfl : Json.string s = v := by simpa [Schema.accept] using h
    exact ⟨rfl, .string s, nofun⟩
  | _ => simp [Schema.accept] at h

/-- Items of a plain form are taken as they are. -/
theorem Schema.Plain.mapM_accept {s : Schema} (hs : s.Plain) : ∀ {js vs : List Json},
    js.mapM s.accept = some vs → vs = js ∧ ∀ v ∈ vs, s.Canonical v
  | [], vs, h => by
    obtain rfl : [] = vs := by simpa using h
    exact ⟨rfl, nofun⟩
  | j :: js, vs, h => by
    rw [List.mapM_cons] at h
    simp only [Option.bind_eq_bind, Option.bind_eq_some_iff] at h
    obtain ⟨v, hv, rest, hrest, h⟩ := h
    obtain rfl : v :: rest = vs := by simpa using h
    obtain ⟨rfl, hcanonical, -⟩ := hs hv
    obtain ⟨rfl, hall⟩ := hs.mapM_accept hrest
    exact ⟨rfl, List.forall_mem_cons.mpr ⟨hcanonical, hall⟩⟩

/-- Lists of plain values are plain. -/
theorem Schema.Plain.list {s : Schema} (hs : s.Plain) : (Schema.list s).Plain := by
  intro j v h
  cases j with
  | array js =>
    simp only [Schema.accept, Option.map_eq_some_iff] at h
    obtain ⟨vs, hvs, rfl⟩ := h
    obtain ⟨rfl, hall⟩ := hs.mapM_accept hvs
    exact ⟨rfl, .list hall, nofun⟩
  | _ => simp [Schema.accept] at h

/-! ## What is accepted is canonical -/

/-- What is not `null` is accepted where it may be missing as it is where it may not. -/
theorem Schema.accept_optional {s : Schema} {j : Json} (hj : j ≠ .null) :
    (Schema.optional s).accept j = s.accept j := by
  rw [Schema.accept]
  exact hj

/-- The value of a field, from its member or in the absence of one. -/
def Schema.acceptField (s : Schema) (missing : Missing) : Option Json → Option Json
  | some j => s.accept j
  | none => missing.inObject

/-- A field has a canonical value, given or not. -/
theorem Schema.canonical_acceptField {s : Schema} {missing : Missing} {v : Json}
    (haccept : ∀ {j}, s.accept j = some v → s.Canonical v)
    (hmissing : ∀ {v}, missing.inObject = some v → s.Canonical v) :
    ∀ {given : Option Json}, s.acceptField missing given = some v → s.Canonical v
  | none, h => hmissing h
  | some _, h => haccept h

/-- Members are accepted field by field. -/
theorem Fields.acceptMembers_field {name : String} {s : Schema} {missing : Missing} {rest : Fields}
    {ms xs : List (String × Json)} :
    (Fields.field name s missing rest).acceptMembers ms = some xs ↔
      ∃ v vs, s.acceptField missing (ms.lookup name) = some v ∧ rest.acceptMembers ms = some vs ∧
        (name, v) :: vs = xs := by
  rw [Fields.acceptMembers]
  cases ms.lookup name <;> simp [Schema.acceptField, Option.bind_eq_some_iff]

/-- What is filled in at the end of an array is what is filled in in an object. -/
theorem Missing.inObject_of_inArray {missing : Missing} {v : Json} (h : missing.inArray = some v) :
    missing.inObject = some v := by
  cases missing with
  | filled j => exact h
  | _ => cases h

mutual

/-- What a layered form accepts is canonical. -/
theorem Schema.Layered.canonical : ∀ {s : Schema} {j v : Json}, s.Layered → s.accept j = some v →
    s.Canonical v
  | _, _, _, .plain hs, h => (hs h).2.1
  | .optional s, j, v, .optional hs, h => by
    by_cases hj : j = .null
    · obtain rfl : Json.null = v := by simpa [hj, Schema.accept] using h
      exact .null _
    · exact .optional (hs.canonical (Schema.accept_optional hj ▸ h))
  | .record fs, .array js, v, .record hnames hfs, h => by
    simp only [Schema.accept, Option.map_eq_some_iff] at h
    obtain ⟨xs, hxs, rfl⟩ := h
    exact .record hnames (hfs.canonical_row hxs)
  | .record fs, .object ms, v, .record hnames hfs, h => by
    simp only [Schema.accept, Option.map_eq_some_iff] at h
    obtain ⟨xs, hxs, rfl⟩ := h
    exact .record hnames (hfs.canonical_members hxs)
  | .record fs, .null, v, .record .., h | .record fs, .bool _, v, .record .., h
  | .record fs, .number _, v, .record .., h | .record fs, .string _, v, .record .., h => by
    simp [Schema.accept] at h

/-- What is accepted from an array is canonical, field by field. -/
theorem Fields.Layered.canonical_row : ∀ {fs : Fields} {js : List Json}
    {xs : List (String × Json)}, fs.Layered → fs.acceptRow js = some xs → fs.Canonical xs
  | .none, js, xs, .none, h => by
    obtain ⟨-, rfl⟩ : js.isEmpty ∧ [] = xs := by simpa [Fields.acceptRow] using h
    exact .none
  | .field name s missing rest, [], xs, .field hs hmissing hrest, h => by
    simp only [Fields.acceptRow, Option.bind_eq_bind, Option.bind_eq_some_iff] at h
    obtain ⟨v, hv, vs, hvs, h⟩ := h
    obtain rfl : (name, v) :: vs = xs := by simpa using h
    exact .field (hmissing (Missing.inObject_of_inArray hv)) (hrest.canonical_row hvs)
  | .field name s missing rest, j :: js, xs, .field hs hmissing hrest, h => by
    simp only [Fields.acceptRow, Option.bind_eq_bind, Option.bind_eq_some_iff] at h
    obtain ⟨v, hv, vs, hvs, h⟩ := h
    obtain rfl : (name, v) :: vs = xs := by simpa using h
    exact .field (hs.canonical hv) (hrest.canonical_row hvs)

/-- What is accepted from an object is canonical, field by field. -/
theorem Fields.Layered.canonical_members : ∀ {fs : Fields} {ms : List (String × Json)}
    {xs : List (String × Json)}, fs.Layered → fs.acceptMembers ms = some xs → fs.Canonical xs
  | .none, ms, xs, .none, h => by
    obtain rfl : [] = xs := by simpa [Fields.acceptMembers] using h
    exact .none
  | .field name s missing rest, ms, xs, .field hs hmissing hrest, h => by
    obtain ⟨v, vs, hv, hvs, rfl⟩ := Fields.acceptMembers_field.mp h
    exact .field (Schema.canonical_acceptField (fun h => hs.canonical h) hmissing hv)
      (hrest.canonical_members hvs)

end

/-! ## Overrides that are applied again -/

/-- Applied again, an override that is not an object replaces itself. -/
theorem Schema.accept_again_of_object {s : Schema} {old : Option Json} {j v : Json}
    (h : s.accept (mergeMember old j) = some v)
    (hobject : ∀ patch, j = .object patch → s.accept (merge v j) = some v) :
    s.accept (merge v j) = some v := by
  by_cases hj : ∃ patch, j = .object patch
  · obtain ⟨patch, hpatch⟩ := hj
    exact hobject patch hpatch
  · have hj : ∀ patch, j ≠ .object patch := fun patch hpatch => hj ⟨patch, hpatch⟩
    rw [mergeMember_of_not_object hj] at h
    rwa [merge_of_not_object hj]

mutual

/-- An override that was accepted on top of anything is accepted again on top of what it gave, and
gives the same. -/
theorem Schema.Layered.accept_again : ∀ {s : Schema} {old : Option Json} {j v : Json}, s.Layered →
    j.KeysOnce → s.accept (mergeMember old j) = some v → s.accept (merge v j) = some v
  | _, old, j, v, .plain hs, hj, h => by
    refine Schema.accept_again_of_object h fun patch hpatch => ?_
    subst hpatch
    obtain ⟨ms, hms⟩ := exists_mergeMember_eq_object patch old
    exact absurd hms ((hs h).2.2 ms)
  | .optional s, old, j, v, .optional hs, hj, h => by
    refine Schema.accept_again_of_object h fun patch hpatch => ?_
    subst hpatch
    have hnull (base : Option Json) : mergeMember base (.object patch) ≠ .null :=
      mergeMember_ne_null (by simp) base
    rw [Schema.accept_optional (hnull old)] at h
    exact (Schema.accept_optional (hnull (some v))).trans (hs.accept_again hj h)
  | .record fs, old, j, v, .record hnames hfs, hj, h => by
    refine Schema.accept_again_of_object h fun patch hpatch => ?_
    subst hpatch
    cases hj with
    | object hkeys hmembers =>
      obtain ⟨ms, hms, hlookup⟩ := exists_mergeMember_object old hkeys
      rw [hms, Schema.accept, Option.map_eq_some_iff] at h
      obtain ⟨ys, hys, rfl⟩ := h
      have hnodup : (ys.map (·.1)).Nodup := (hfs.canonical_members hys).keys_eq_names ▸ hnames
      rw [merge, Schema.accept, hfs.accept_again (.object hkeys hmembers) hlookup hys
        fun y hy => lookup_of_mem hnodup hy]
      rfl

/-- The fields `ys` that were taken stand among `xs`, so the patch on top of `xs` gives them again:
a field that it mentions by the statement on values, and any other as the canonical value it is. -/
theorem Fields.Layered.accept_again : ∀ {fs : Fields} {old : String → Option Json}
    {patch ms xs ys : List (String × Json)}, fs.Layered → KeysOnce (.object patch) →
    (∀ name, ms.lookup name = onTop (old name) (patch.lookup name)) →
    fs.acceptMembers ms = some ys → (∀ y ∈ ys, xs.lookup y.1 = some y.2) →
    fs.acceptMembers (mergeMembers xs patch) = some ys
  | .none, _, _, _, _, _, .none, _, _, h, _ => h
  | .field name s missing rest, old, patch, ms, xs, ys, .field hs hmissing hrest,
      .object hkeys hmembers, hms, h, hxs => by
    obtain ⟨v, vs, hv, hvs, rfl⟩ := Fields.acceptMembers_field.mp h
    obtain ⟨hfirst, hxs⟩ := List.forall_mem_cons.mp hxs
    refine Fields.acceptMembers_field.mpr
      ⟨v, vs, ?_, hrest.accept_again (.object hkeys hmembers) hms hvs hxs, rfl⟩
    have hcanonical : s.Canonical v :=
      Schema.canonical_acceptField (fun h => hs.canonical h) hmissing hv
    rw [lookup_mergeMembers_eq_onTop name hkeys, hfirst]
    rw [hms name] at hv
    cases hj : patch.lookup name with
    | none => exact hcanonical.accept
    | some j =>
      rw [hj] at hv
      exact hs.accept_again (hmembers _ (mem_of_lookup hj)) hv

end

end StackEditor.Json
