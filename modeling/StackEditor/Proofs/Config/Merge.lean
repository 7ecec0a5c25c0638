import StackEditor.Config
import StackEditor.Proofs.Json.Spelling

/-!
# Merging overrides

An object of overrides without repeated keys is merged key by key: `lookup_mergeMembers` tells the
member under each key of the result from the members that the two sides have there. Which order
the members stand in does not matter to any reader.

On top of a value that stands for a missing field, an override is read as if nothing had stood
there (`Schema.Standby`): what the record would fill in for itself is what the override leaves.
-/

namespace StackEditor

namespace SessionConfig

/-- Setting a member changes what is found under its key and nothing else. -/
theorem lookup_setMember (key : String) (j : Json) (name : String) :
    ∀ (ms : List (String × Json)),
      (Json.setMember key j ms).lookup name = if name = key then some j else ms.lookup name
  | [] => lookup_cons_eq_ite name key j []
  | (k, old) :: ms => by
    by_cases hk : k = key
    · simp only [Json.setMember, hk, if_true, lookup_cons_eq_ite]
      split <;> rfl
    · simp only [Json.setMember, hk, if_false, lookup_cons_eq_ite, lookup_setMember key j name ms]
      by_cases hname : name = k
      · simp [hname, hk]
      · simp [hname]

/-- A member with an override, where nothing or an `old` value stands. -/
def mergeMember (old : Option Json) (j : Json) : Json :=
  match old with
  | some old => merge old j
  | none => j

/-- Under each key stands the old member, or the override on top of it. -/
theorem lookup_mergeMembers (name : String) : ∀ {patch : List (String × Json)},
    (patch.map (·.1)).Nodup → ∀ (ms : List (String × Json)),
      (mergeMembers ms patch).lookup name = match patch.lookup name with
        | some j => some (mergeMember (ms.lookup name) j)
        | none => ms.lookup name
  | [], _, ms => by simp [mergeMembers]
  | (key, j) :: patch, hkeys, ms => by
    obtain ⟨hnew, hrest⟩ := List.nodup_cons.mp hkeys
    rw [mergeMembers, lookup_mergeMembers name hrest, lookup_setMember, lookup_cons_eq_ite]
    by_cases hname : name = key
    · subst hname
      simp only [lookup_eq_none_iff.2 hnew, if_true]
      rfl
    · simp only [hname, if_false]

end SessionConfig

namespace Json

open SessionConfig (merge mergeMembers lookup_mergeMembers)

/-! ## Values that stand for missing ones -/

/-- The value `old` is of the form in its canonical spelling, and an override on top of it is
accepted as if it stood alone. -/
structure Schema.Standby (s : Schema) (old : Json) : Prop where
  accept : s.accept old = some old
  merge : ∀ {j : Json}, j.KeysOnce → s.accept (merge old j) = s.accept j

/-- What is not an object gives way to every override. -/
theorem Schema.standby_of_accept {s : Schema} {old : Json} (haccept : s.accept old = some old)
    (hobject : ∀ ms, old ≠ .object ms) : s.Standby old := by
  refine ⟨haccept, fun {j} _ => ?_⟩
  cases j with
  | object patch =>
    cases old with
    | object ms => exact absurd rfl (hobject ms)
    | _ => rfl
  | _ => rfl

/-- Each field that is missing is filled from `base`, with a value that stands by. -/
inductive Fields.FilledBy (base : List (String × Json)) : Fields → Prop
  | none : FilledBy base .none
  | field {name : String} {s : Schema} {old : Json} {rest : Fields}
      (hbase : base.lookup name = some old) (hold : s.Standby old) (hrest : rest.FilledBy base) :
      FilledBy base (.field name s (.filled old) rest)

/-- Whether the base stands below the overrides or is filled in behind them comes to the same. -/
theorem Fields.FilledBy.acceptMembers_mergeMembers {base patch : List (String × Json)}
    (hpatch : KeysOnce (.object patch)) {fs : Fields} (h : fs.FilledBy base) :
    fs.acceptMembers (mergeMembers base patch) = fs.acceptMembers patch := by
  induction h with
  | none => rfl
  | @field name s old rest hbase hold hrest ih =>
    cases hpatch with
    | object hkeys hmembers =>
      rw [Fields.acceptMembers, Fields.acceptMembers, ih, lookup_mergeMembers name hkeys, hbase]
      cases hj : patch.lookup name with
      | none => simp [hold.accept, Missing.inObject]
      | some j =>
        have hvalue := hold.merge (hmembers _ (mem_of_lookup hj))
        simp [SessionConfig.mergeMember, hvalue]

/-- A record whose missing fields are filled from `base` has `base` standing by. -/
theorem Fields.FilledBy.standby {base : List (String × Json)} {fs : Fields}
    (h : fs.FilledBy base) (haccept : fs.acceptMembers base = some base) :
    (Schema.record fs).Standby (.object base) := by
  refine ⟨by rw [Schema.accept, haccept]; rfl, fun {j} hj => ?_⟩
  cases j with
  | object patch =>
    rw [SessionConfig.merge, Schema.accept, Schema.accept, h.acceptMembers_mergeMembers hj]
  | _ => rfl

end Json

end StackEditor
