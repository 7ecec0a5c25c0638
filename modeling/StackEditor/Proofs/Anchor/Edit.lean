import Mathlib.Order.Bounds.Basic
import StackEditor.Anchor.Edit

/-!
# The edit between two texts

`Edit.between` keeps the longest start that two texts share, and of the rest the longest end. Both
are said here without it: `ShareStart` and `ShareEnd` are the lengths that are shared, and the edit
is the one with the greatest of each (`Edit.between_eq`). `landing?` says where such an edit puts an
offset of the old text (`Edit.move_between`).
-/

namespace StackEditor

/-- Both texts have at least `n` characters, and start with the same `n`. -/
def ShareStart (old new : List Char) (n : Nat) : Prop :=
  n ≤ old.length ∧ n ≤ new.length ∧ old.take n = new.take n

/-- Both texts have at least `n` characters, and end with the same `n`. -/
def ShareEnd (old new : List Char) (n : Nat) : Prop :=
  n ≤ old.length ∧ n ≤ new.length ∧ old.drop (old.length - n) = new.drop (new.length - n)

/-- Where an offset of the old text lies in the new one, if the start of length `first` and the end
of length `final` are kept: unmoved in the start, as far from the end as before in the end, and at
the end of the start if something new stands there. Every other offset is gone. -/
def landing? (old new : List Char) (first final offset : Nat) : Option Nat :=
  if offset < first then some offset
  else if old.length - final ≤ offset then some (offset + new.length - old.length)
  else if offset = first ∧ first + final < new.length then some first
  else none

/-! ## Shared starts and ends -/

/-- A start in front of both texts is shared. -/
theorem commonStart_append (u as bs : List Char) :
    commonStart (u ++ as) (u ++ bs) = u.length + commonStart as bs := by
  induction u with
  | nil => simp
  | cons c u ih =>
    simp only [List.cons_append, commonStart, if_true, ih, List.length_cons]
    omega

/-- What is found to be shared is shared. -/
theorem shareStart_commonStart (as bs : List Char) : ShareStart as bs (commonStart as bs) := by
  induction as generalizing bs with
  | nil => simp [ShareStart, commonStart]
  | cons a as ih =>
    cases bs with
    | nil => simp [ShareStart, commonStart]
    | cons b bs =>
      by_cases hab : a = b
      · obtain ⟨ha, hb, heq⟩ := ih bs
        subst hab
        simp only [commonStart, if_true]
        exact ⟨Nat.succ_le_succ ha, Nat.succ_le_succ hb, by simp [heq]⟩
      · simp [ShareStart, commonStart, hab]

/-- What is shared at the start is found. -/
theorem ShareStart.le_commonStart {as bs : List Char} {n : Nat} (h : ShareStart as bs n) :
    n ≤ commonStart as bs := by
  obtain ⟨ha, -, heq⟩ := h
  have hsplit : commonStart as bs = n + commonStart (as.drop n) (bs.drop n) := by
    conv => lhs; rw [← List.take_append_drop n as, ← List.take_append_drop n bs, ← heq]
    rw [commonStart_append, List.length_take_of_le ha]
  omega

/-- The start that is found is the longest that is shared. -/
theorem isGreatest_commonStart (as bs : List Char) :
    IsGreatest {n | ShareStart as bs n} (commonStart as bs) :=
  ⟨shareStart_commonStart as bs, fun _ h => h.le_commonStart⟩

/-- An end is shared if the start of the reversed texts is. -/
theorem shareStart_reverse_iff {as bs : List Char} {n : Nat} :
    ShareStart as.reverse bs.reverse n ↔ ShareEnd as bs n := by
  simp only [ShareStart, ShareEnd, List.length_reverse, List.take_reverse, List.reverse_inj]

/-- Behind a start of both texts, the ends that are shared are those that leave room for it. -/
theorem shareEnd_drop_iff {old new : List Char} {first n : Nat} (hold : first ≤ old.length)
    (hnew : first ≤ new.length) :
    ShareEnd (old.drop first) (new.drop first) n ↔
      ShareEnd old new n ∧ first + n ≤ old.length ∧ first + n ≤ new.length := by
  simp only [ShareEnd, List.length_drop, List.drop_drop]
  constructor
  · rintro ⟨ho, hn, heq⟩
    rw [show first + (old.length - first - n) = old.length - n by omega,
      show first + (new.length - first - n) = new.length - n by omega] at heq
    exact ⟨⟨by omega, by omega, heq⟩, by omega, by omega⟩
  · rintro ⟨⟨-, -, heq⟩, ho, hn⟩
    rw [show first + (old.length - first - n) = old.length - n by omega,
      show first + (new.length - first - n) = new.length - n by omega]
    exact ⟨by omega, by omega, heq⟩

/-- The end that is found is the longest that leaves room for the start. -/
theorem isGreatest_commonEnd {old new : List Char} {first : Nat} (hold : first ≤ old.length)
    (hnew : first ≤ new.length) :
    IsGreatest {n | ShareEnd old new n ∧ first + n ≤ old.length ∧ first + n ≤ new.length}
      (commonEnd (old.drop first) (new.drop first)) := by
  have hgreatest := isGreatest_commonStart (old.drop first).reverse (new.drop first).reverse
  simp only [shareStart_reverse_iff, shareEnd_drop_iff hold hnew] at hgreatest
  exact hgreatest

/-! ## The edit -/

namespace Edit

/-- The edit between two texts, from the longest start that they share and the longest end that
leaves room for it. -/
theorem between_eq {old new : List Char} {first final : Nat}
    (hfirst : IsGreatest {n | ShareStart old new n} first)
    (hfinal : IsGreatest
      {n | ShareEnd old new n ∧ first + n ≤ old.length ∧ first + n ≤ new.length} final) :
    between old new = ⟨first, old.length - first - final, new.length - first - final⟩ := by
  obtain rfl := (isGreatest_commonStart old new).unique hfirst
  obtain ⟨hold, hnew, -⟩ := hfirst.1
  obtain rfl := (isGreatest_commonEnd hold hnew).unique hfinal
  rfl

/-- The edit between two texts moves the offsets of the old one to where they land. -/
theorem move_between {old new : List Char} {first final offset : Nat}
    (hfirst : IsGreatest {n | ShareStart old new n} first)
    (hfinal : IsGreatest
      {n | ShareEnd old new n ∧ first + n ≤ old.length ∧ first + n ≤ new.length} final) :
    (between old new).move offset = landing? old new first final offset := by
  obtain ⟨-, hold, hnew⟩ := hfinal.1
  rw [between_eq hfirst hfinal]
  have hbehind : first + (old.length - first - final) ≤ offset ↔ old.length - final ≤ offset := by
    omega
  have hput : 0 < new.length - first - final ↔ first + final < new.length := by
    omega
  simp only [move, landing?, hbehind, hput]
  split
  · rfl
  split
  · congr 1
    omega
  split
  · next h => rw [h.1]
  · rfl

/-- What lies in front of an edit stays. -/
theorem move_of_lt {e : Edit} {o : Nat} (h : o < e.start) : e.move o = some o :=
  if_pos h

/-- What lies behind an edit keeps its distance from it. -/
theorem move_of_le {e : Edit} {o : Nat} (h : e.start + e.deleted ≤ o) :
    e.move o = some (o - e.deleted + e.inserted) := by
  rw [move, if_neg (by omega), if_pos h]

/-- The first offset that is deleted stays if something takes its place. -/
theorem move_start {e : Edit} (h : 0 < e.deleted) :
    e.move e.start = if 0 < e.inserted then some e.start else none := by
  rw [move, if_neg (Nat.lt_irrefl _), if_neg (by omega)]
  simp

/-- Every other offset that is deleted is gone. -/
theorem move_of_inside {e : Edit} {o : Nat} (h : e.start < o) (h' : o < e.start + e.deleted) :
    e.move o = none := by
  rw [move, if_neg (by omega), if_neg (by omega), if_neg (by omega)]

/-- The three ways in which an offset outlives an edit: in front of it, behind it, or as the first
that is replaced. -/
theorem move_cases {e : Edit} {o moved : Nat} (h : e.move o = some moved) :
    (o < e.start ∧ moved = o) ∨
      (e.start + e.deleted ≤ o ∧ moved = o - e.deleted + e.inserted) ∨
      (o = e.start ∧ moved = o ∧ 0 < e.inserted ∧ 0 < e.deleted) := by
  unfold move at h
  split at h
  · next hfront => exact .inl ⟨hfront, (Option.some.inj h).symm⟩
  split at h
  · next hbehind => exact .inr (.inl ⟨hbehind, (Option.some.inj h).symm⟩)
  split at h
  · next hfirst =>
    have hmoved := Option.some.inj h
    exact .inr (.inr ⟨hfirst.1, hmoved.symm, hfirst.2, by omega⟩)
  · cases h

/-- An offset of a text of length `n` is moved to an offset of the text after the edit. -/
theorem move_le {e : Edit} {n offset moved : Nat} (he : e.start + e.deleted ≤ n)
    (hoffset : offset ≤ n) (h : e.move offset = some moved) :
    moved ≤ n - e.deleted + e.inserted := by
  rcases move_cases h with ⟨_, rfl⟩ | ⟨_, rfl⟩ | ⟨_, rfl, _⟩ <;> omega

/-- An edit keeps the order of the offsets that outlive it. -/
theorem move_lt_move_iff {e : Edit} {o o' moved moved' : Nat} (h : e.move o = some moved)
    (h' : e.move o' = some moved') : moved < moved' ↔ o < o' := by
  rcases move_cases h with ⟨_, rfl⟩ | ⟨_, rfl⟩ | ⟨_, rfl, _⟩ <;>
    rcases move_cases h' with ⟨_, rfl⟩ | ⟨_, rfl⟩ | ⟨_, rfl, _⟩ <;> omega

/-- An edit keeps the order of the offsets that survive it. -/
theorem move_le_move {e : Edit} {o o' moved moved' : Nat} (hle : o ≤ o')
    (h : e.move o = some moved) (h' : e.move o' = some moved') : moved ≤ moved' :=
  Nat.not_lt.1 fun hlt => Nat.not_lt.2 hle ((move_lt_move_iff h' h).1 hlt)

/-- An edit moves no two offsets to one. -/
theorem move_inj {e : Edit} {o o' moved : Nat} (h : e.move o = some moved)
    (h' : e.move o' = some moved) : o = o' := by
  have hlt := mt (move_lt_move_iff h h').2 (Nat.lt_irrefl moved)
  have hgt := mt (move_lt_move_iff h' h).2 (Nat.lt_irrefl moved)
  exact Nat.le_antisymm (Nat.not_lt.1 hgt) (Nat.not_lt.1 hlt)

/-- The edit between two texts deletes a stretch of the old one. -/
theorem between_le_length (old new : List Char) :
    (between old new).start + (between old new).deleted ≤ old.length := by
  have hold := (shareStart_commonStart old new).1
  simp only [between]
  omega

/-- The edit between two texts keeps what stands in front of it. -/
theorem take_between (old new : List Char) :
    new.take (between old new).start = old.take (between old new).start :=
  (shareStart_commonStart old new).2.2.symm

/-- The edit between two texts keeps what stands behind it. -/
theorem drop_between (old new : List Char) :
    new.drop ((between old new).start + (between old new).inserted) =
      old.drop ((between old new).start + (between old new).deleted) := by
  obtain ⟨hold, hnew, -⟩ := shareStart_commonStart old new
  obtain ⟨⟨-, -, heq⟩, hold', hnew'⟩ := (isGreatest_commonEnd hold hnew).1
  simp only [between]
  generalize commonEnd _ _ = final at heq hold' hnew' ⊢
  rw [show commonStart old new + (new.length - commonStart old new - final) =
      new.length - final by omega,
    show commonStart old new + (old.length - commonStart old new - final) =
      old.length - final by omega, heq]

/-- The edit between two texts leads to the length of the new one. -/
theorem length_between (old new : List Char) :
    old.length - (between old new).deleted + (between old new).inserted = new.length := by
  obtain ⟨hold, hnew, -⟩ := shareStart_commonStart old new
  obtain ⟨-, hold', hnew'⟩ := (isGreatest_commonEnd hold hnew).1
  simp only [between]
  omega

end Edit

end StackEditor
