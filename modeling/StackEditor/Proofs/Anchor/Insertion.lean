import StackEditor.Proofs.Anchor.Edit
import StackEditor.Proofs.Text.Overlap

/-!
# Insertions and deletions

When one text is the other with a stretch `w` put in, the edit that is found between the two puts in
or takes out as many characters as `w` has, but perhaps further right than where `w` stands: as far
as the text there repeats `w`. Offsets of characters that `w` does not have are not between the two
places, so they are moved as if the edit were at `w` itself (`Edit.move_insert`,
`Edit.move_delete`).
-/

namespace StackEditor

/-- An end behind both texts is shared. -/
theorem commonEnd_append_left (y r : List Char) : commonEnd r (y ++ r) = r.length := by
  have h := commonStart_append r.reverse [] y.reverse
  rw [List.append_nil] at h
  rw [commonEnd, List.reverse_append, h, List.length_reverse]
  rfl

/-- An end behind both texts is shared. -/
theorem commonEnd_append_right (y r : List Char) : commonEnd (y ++ r) r = r.length := by
  have h := commonStart_append r.reverse y.reverse []
  rw [List.append_nil] at h
  rw [commonEnd, List.reverse_append, h, List.length_reverse]
  cases y.reverse <;> rfl

namespace Edit

variable {p : Char → Prop} {w : List Char}

/-- A start in front of both texts moves the edit between them. -/
theorem between_append (u as bs : List Char) :
    between (u ++ as) (u ++ bs) =
      { between as bs with start := u.length + (between as bs).start } := by
  simp only [between, commonStart_append, List.drop_length_add_append, List.length_append,
    Nat.add_sub_add_left]

/-- Putting `w` in front of `v` is found as an insertion. -/
theorem deleted_between_insert (u w v : List Char) :
    (between (u ++ v) (u ++ (w ++ v))).deleted = 0 := by
  obtain ⟨hv, -, -⟩ := shareStart_commonStart v (w ++ v)
  -- what follows the shared start in `v` is the end of what follows it in `w ++ v`
  have hrest : v.drop (commonStart v (w ++ v)) <:+ (w ++ v).drop (commonStart v (w ++ v)) := by
    refine List.suffix_of_suffix_length_le ?_ (List.drop_suffix _ _) ?_
    · exact (List.drop_suffix _ _).trans (List.suffix_append w v)
    · rw [List.length_drop, List.length_drop, List.length_append]
      omega
  obtain ⟨y, hy⟩ := hrest
  rw [between_append]
  show v.length - commonStart v (w ++ v) - commonEnd _ _ = 0
  rw [← hy, commonEnd_append_left, List.length_drop]
  omega

/-- Putting `w` in front of `v` is found as an insertion of its length behind `x`, where `v` starts
with `x` and `x` has only characters of `w`. -/
theorem between_insert (hne : w ≠ []) (hw : ∀ c ∈ w, p c) (v : List Char) :
    ∃ x, between v (w ++ v) = ⟨x.length, 0, w.length⟩ ∧ x <+: v ∧ ∀ c ∈ x, p c := by
  obtain ⟨hv, -, heq⟩ := shareStart_commonStart v (w ++ v)
  generalize hq : commonStart v (w ++ v) = q at hv heq
  have hlong : w ++ v = v.take q ++ (w ++ v).drop q := by rw [heq, List.take_append_drop]
  obtain ⟨y, hy, -, hx, -⟩ := exists_of_overlap hne hw (List.take_append_drop q v).symm hlong
  refine ⟨v.take q, ?_, List.take_prefix q v, hx⟩
  simp only [between, hq, hy, commonEnd_append_left, List.length_drop, List.length_append,
    List.length_take_of_le hv, Edit.mk.injEq, true_and]
  omega

/-- Taking `w` away in front of `v` is found as a deletion of its length behind `x`, where `v`
starts with `x` and `x` has only characters of `w`. -/
theorem between_delete (hne : w ≠ []) (hw : ∀ c ∈ w, p c) (v : List Char) :
    ∃ x, between (w ++ v) v = ⟨x.length, w.length, 0⟩ ∧ x <+: v ∧ ∀ c ∈ x, p c := by
  obtain ⟨-, hv, heq⟩ := shareStart_commonStart (w ++ v) v
  generalize hq : commonStart (w ++ v) v = q at hv heq
  have hlong : w ++ v = v.take q ++ (w ++ v).drop q := by rw [← heq, List.take_append_drop]
  obtain ⟨y, hy, -, hx, -⟩ := exists_of_overlap hne hw (List.take_append_drop q v).symm hlong
  refine ⟨v.take q, ?_, List.take_prefix q v, hx⟩
  simp only [between, hq, hy, commonEnd_append_right, List.length_drop, List.length_append,
    List.length_take_of_le hv, Edit.mk.injEq, true_and]
  omega

/-- An offset of `u ++ v` whose character is not one of `x` lies in `u` or behind `x`. -/
theorem lt_or_le_of_getElem? {u v x : List Char} (hxv : x <+: v) (hx : ∀ c ∈ x, p c) {o : Nat}
    {c : Char} (hc : (u ++ v)[o]? = some c) (hp : ¬ p c) :
    o < u.length ∨ u.length + x.length ≤ o := by
  by_contra hmid
  obtain ⟨r, rfl⟩ := hxv
  obtain ⟨i, rfl⟩ := Nat.exists_eq_add_of_le (show u.length ≤ o by omega)
  rw [List.getElem?_append_right (by omega), Nat.add_sub_cancel_left,
    List.getElem?_append_left (by omega)] at hc
  exact hp (hx c (List.mem_of_getElem? hc))

/-- An insertion of `w` pushes the characters behind it that are none of `w`, and no others. -/
theorem move_insert (hne : w ≠ []) (hw : ∀ c ∈ w, p c) {u v : List Char} {o : Nat} {c : Char}
    (hc : (u ++ v)[o]? = some c) (hp : ¬ p c) :
    (between (u ++ v) (u ++ (w ++ v))).move o =
      some (if o < u.length then o else o + w.length) := by
  obtain ⟨x, hbetween, hxv, hx⟩ := between_insert hne hw v
  have hside := lt_or_le_of_getElem? hxv hx hc hp
  simp only [between_append, hbetween, move]
  split
  · rw [if_pos (by omega)]
  · rw [if_pos (by omega), if_neg (by omega)]
    rfl

/-- A deletion of `w` draws the characters behind it that are none of `w`, and no others. -/
theorem move_delete (hne : w ≠ []) (hw : ∀ c ∈ w, p c) {u v : List Char} {o : Nat} {c : Char}
    (hc : (u ++ v)[o]? = some c) (hp : ¬ p c) :
    (between (u ++ (w ++ v)) (u ++ v)).move (if o < u.length then o else o + w.length) =
      some o := by
  obtain ⟨x, hbetween, hxv, hx⟩ := between_delete hne hw v
  have hside := lt_or_le_of_getElem? hxv hx hc hp
  simp only [between_append, hbetween, move]
  split
  · rw [if_pos (by omega)]
  · rw [if_neg (by omega), if_pos (by omega)]
    simp

end Edit

end StackEditor
