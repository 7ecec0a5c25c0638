/-!
# Sets of names

A set of names is kept as a list in strictly increasing order, by code points. So a set has one
form only: sets with the same members are equal (`NameSet.ext_mem`), whatever the order in which
the members came, and listing a set gives its names sorted.
-/

namespace StackEditor

/-- The list `names` with `x` put in its place, unless it is there already. -/
def insertName (x : String) : List String → List String
  | [] => [x]
  | y :: ys => if x < y then x :: y :: ys else if x = y then y :: ys else y :: insertName x ys

/-- The list gets the name and keeps those it had. -/
theorem mem_insertName {x z : String} {ys : List String} :
    z ∈ insertName x ys ↔ z = x ∨ z ∈ ys := by
  induction ys with
  | nil => simp [insertName]
  | cons y ys ih =>
    unfold insertName
    split
    · simp
    split
    · next h => simp [h]
    · simp only [List.mem_cons, ih]
      grind

/-- The list stays in strict order. -/
theorem pairwise_insertName {x : String} {ys : List String} (h : ys.Pairwise (· < ·)) :
    (insertName x ys).Pairwise (· < ·) := by
  induction ys with
  | nil => simp [insertName]
  | cons y ys ih =>
    rw [List.pairwise_cons] at h
    unfold insertName
    split
    · next hxy =>
      refine List.pairwise_cons.2 ⟨fun z hz => ?_, List.pairwise_cons.2 h⟩
      rcases List.mem_cons.1 hz with rfl | hz
      · exact hxy
      · exact String.lt_trans hxy (h.1 z hz)
    split
    · exact List.pairwise_cons.2 h
    · next hle hne =>
      refine List.pairwise_cons.2 ⟨fun z hz => ?_, ih h.2⟩
      rcases mem_insertName.1 hz with rfl | hz
      · exact Std.lt_of_le_of_ne (String.not_lt.1 hle) (Ne.symm hne)
      · exact h.1 z hz

/-- A finite set of names. -/
structure NameSet where
  toList : List String
  increasing : toList.Pairwise (· < ·) := by exact List.Pairwise.nil
  deriving DecidableEq

namespace NameSet

instance : Membership String NameSet where
  mem s x := x ∈ s.toList

theorem mem_def {s : NameSet} {x : String} : x ∈ s ↔ x ∈ s.toList := Iff.rfl

instance (x : String) (s : NameSet) : Decidable (x ∈ s) :=
  decidable_of_iff _ mem_def.symm

/-- The set without names. -/
def empty : NameSet where
  toList := []

/-- The set with `x` in it. -/
def insert (s : NameSet) (x : String) : NameSet :=
  ⟨insertName x s.toList, pairwise_insertName s.increasing⟩

/-- The set with all of `xs` in it. -/
def insertAll (s : NameSet) (xs : List String) : NameSet :=
  xs.foldl insert s

/-- The set of the names in `xs`. -/
def ofList (xs : List String) : NameSet := empty.insertAll xs

@[simp] theorem not_mem_empty {x : String} : x ∉ empty := by
  simp [mem_def, empty]

@[simp] theorem mem_insert {s : NameSet} {x z : String} : z ∈ s.insert x ↔ z = x ∨ z ∈ s :=
  mem_insertName

@[simp] theorem mem_insertAll {s : NameSet} {xs : List String} {z : String} :
    z ∈ s.insertAll xs ↔ z ∈ xs ∨ z ∈ s := by
  induction xs generalizing s with
  | nil => simp [insertAll]
  | cons x xs ih =>
    have : s.insertAll (x :: xs) = (s.insert x).insertAll xs := rfl
    rw [this, ih]
    simp only [mem_insert, List.mem_cons]
    grind

@[simp] theorem mem_ofList {xs : List String} {z : String} : z ∈ ofList xs ↔ z ∈ xs := by
  simp [ofList]

/-- Increasing lists with the same members are equal. -/
theorem eq_of_pairwise_of_mem {xs ys : List String} (hx : xs.Pairwise (· < ·))
    (hy : ys.Pairwise (· < ·)) (h : ∀ z, z ∈ xs ↔ z ∈ ys) : xs = ys := by
  induction xs generalizing ys with
  | nil =>
    cases ys with
    | nil => rfl
    | cons y ys => exact absurd ((h y).2 List.mem_cons_self) List.not_mem_nil
  | cons x xs ih =>
    cases ys with
    | nil => exact absurd ((h x).1 List.mem_cons_self) List.not_mem_nil
    | cons y ys =>
      rw [List.pairwise_cons] at hx hy
      have hxy : x = y := by
        rcases List.mem_cons.1 ((h x).1 List.mem_cons_self) with rfl | hxy
        · rfl
        · rcases List.mem_cons.1 ((h y).2 List.mem_cons_self) with rfl | hyx
          · rfl
          · exact absurd (hy.1 x hxy) (String.lt_asymm (hx.1 y hyx))
      subst hxy
      congr 1
      refine ih hx.2 hy.2 fun z => ⟨fun hz => ?_, fun hz => ?_⟩
      · rcases List.mem_cons.1 ((h z).1 (List.mem_cons_of_mem _ hz)) with rfl | hz'
        · exact absurd (hx.1 z hz) (String.lt_irrefl z)
        · exact hz'
      · rcases List.mem_cons.1 ((h z).2 (List.mem_cons_of_mem _ hz)) with rfl | hz'
        · exact absurd (hy.1 z hz) (String.lt_irrefl z)
        · exact hz'

/-- Sets with the same members are equal. -/
theorem ext_mem {s t : NameSet} (h : ∀ x, x ∈ s ↔ x ∈ t) : s = t := by
  obtain ⟨xs, hx⟩ := s
  obtain ⟨ys, hy⟩ := t
  cases eq_of_pairwise_of_mem hx hy h
  rfl

end NameSet

end StackEditor
