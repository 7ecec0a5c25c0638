/-!
# Texts that repeat a stretch

When `w` is put in front of `v` and the two texts still start with the same `x`, then `x` repeats
`w` over and over. So its characters are those of `w`, and behind `x` the longer text has as many
characters more as `w` has, with `w`'s characters only (`exists_of_overlap`).
-/

namespace StackEditor

/-- A text that repeats `w` from its start on has only characters of `w`. -/
theorem forall_of_isPrefix_append {p : Char → Prop} {w : List Char} (hne : w ≠ [])
    (hw : ∀ c ∈ w, p c) {x : List Char} (h : x <+: w ++ x) : ∀ c ∈ x, p c := by
  induction hn : x.length using Nat.strongRecOn generalizing x with
  | ind n ih =>
    by_cases hlen : x.length ≤ w.length
    · have hxw := List.prefix_of_prefix_length_le h (List.prefix_append w x) hlen
      exact fun c hc => hw c (hxw.subset hc)
    · -- `x` starts with `w`, and what follows repeats `w` as `x` does
      obtain ⟨y, rfl⟩ := List.prefix_of_prefix_length_le (List.prefix_append w x) h (by omega)
      rw [List.prefix_append_right_inj] at h
      have hpos := List.length_pos_iff.2 hne
      rw [List.length_append] at hn
      have hy := ih y.length (by omega) h rfl
      exact fun c hc => (List.mem_append.1 hc).elim (hw c) (hy c)

/-- Behind a start `x` that `v` and `w ++ v` share, the longer text has `y` more, which is as long
as `w`; `x` and `y` have only characters of `w`. -/
theorem exists_of_overlap {p : Char → Prop} {w v x r r' : List Char} (hne : w ≠ [])
    (hw : ∀ c ∈ w, p c) (hv : v = x ++ r) (hwv : w ++ v = x ++ r') :
    ∃ y, r' = y ++ r ∧ y.length = w.length ∧ (∀ c ∈ x, p c) ∧ ∀ c ∈ y, p c := by
  have hpre : x <+: w ++ x := by
    refine List.prefix_of_prefix_length_le ⟨r', hwv.symm⟩ ?_ (by simp)
    rw [hv, ← List.append_assoc]
    exact List.prefix_append _ _
  have hx := forall_of_isPrefix_append hne hw hpre
  obtain ⟨y, hy⟩ := hpre
  refine ⟨y, ?_, ?_, hx, fun c hc => ?_⟩
  · rw [hv, ← List.append_assoc, ← hy, List.append_assoc] at hwv
    exact (List.append_cancel_left hwv).symm
  · have hlen := congrArg List.length hy
    simp only [List.length_append] at hlen
    omega
  · have hmem : c ∈ w ++ x := hy ▸ List.mem_append_right x hc
    exact (List.mem_append.1 hmem).elim (hw c) (hx c)

end StackEditor
