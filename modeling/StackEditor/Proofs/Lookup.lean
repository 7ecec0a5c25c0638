import Mathlib.Data.List.Basic

/-!
# Entries under a key

Anchors are kept under their names and the members of an object under their keys, both as lists of
pairs. What is looked up is the first entry under the key (`lookup_cons_eq_ite`), and where no key
is there twice, it is the only one (`lookup_of_mem`).
-/

namespace StackEditor

variable {κ β : Type} [BEq κ] [LawfulBEq κ] {xs : List (κ × β)} {k : κ}

/-- The first entry is found under its own key only. -/
theorem lookup_cons_eq_ite [DecidableEq κ] (k key : κ) (v : β) (xs : List (κ × β)) :
    ((key, v) :: xs).lookup k = if k = key then some v else xs.lookup k := by
  by_cases hk : k = key
  · simp [hk]
  · simp [List.lookup_cons, beq_eq_false_iff_ne.mpr hk, hk]

/-- Nothing is found exactly under the keys that are not there. -/
theorem lookup_eq_none_iff : xs.lookup k = none ↔ k ∉ xs.map (·.1) := by
  rw [← Option.not_isSome_iff_eq_none]
  simp [List.lookup_isSome_iff]

/-- What is found is an entry. -/
theorem mem_of_lookup {v : β} (h : xs.lookup k = some v) : (k, v) ∈ xs := by
  obtain ⟨before, behind, rfl, -⟩ := List.lookup_eq_some_iff.mp h
  simp

/-- Without repeated keys, every entry is the one that is found under its key. -/
theorem lookup_of_mem (hkeys : (xs.map (·.1)).Nodup) {x : κ × β} (hx : x ∈ xs) :
    xs.lookup x.1 = some x.2 := by
  obtain ⟨before, behind, rfl⟩ := List.append_of_mem hx
  rw [List.map_append, List.nodup_append] at hkeys
  obtain ⟨-, -, hapart⟩ := hkeys
  refine List.lookup_eq_some_iff.mpr ⟨before, behind, rfl, fun p hp => bne_iff_ne.mpr ?_⟩
  exact (hapart p.1 (List.mem_map_of_mem hp) x.1 (by simp)).symm

end StackEditor
