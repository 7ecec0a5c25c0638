import StackEditor.Anchor.Offset

/-!
# Offsets and positions undo each other

Walking over a character always leads to a later position (`Position.lt_advance`), so two offsets of
one text never share a position (`positionAt_inj`). With the law that stands beside `offsetOf?` this
makes it the inverse of `positionAt` on the offsets of the text (`offsetOf?_eq_some_iff`).
-/

namespace StackEditor

namespace Position

/-! ## The order of positions -/

theorem lt_irrefl (p : Position) : ¬ p < p := by
  rw [lt_def]; omega

theorem le_refl (p : Position) : p ≤ p := by
  rw [le_def]; omega

theorem le_of_lt {p q : Position} (h : p < q) : p ≤ q := by
  rw [lt_def] at h; rw [le_def]; omega

theorem le_trans {p q r : Position} (hpq : p ≤ q) (hqr : q ≤ r) : p ≤ r := by
  rw [le_def] at *; omega

theorem lt_of_lt_of_le {p q r : Position} (hpq : p < q) (hqr : q ≤ r) : p < r := by
  rw [le_def] at hqr; rw [lt_def] at *; omega

theorem lt_of_le_of_lt {p q r : Position} (hpq : p ≤ q) (hqr : q < r) : p < r := by
  rw [le_def] at hpq; rw [lt_def] at *; omega

/-- Of two places that are not the same one comes first. -/
theorem eq_of_not_lt {p q : Position} (hpq : ¬ p < q) (hqp : ¬ q < p) : p = q := by
  obtain ⟨line, col⟩ := p
  obtain ⟨line', col'⟩ := q
  simp only [lt_def, not_or, not_and, Nat.not_lt] at hpq hqp
  rw [mk.injEq]
  omega

/-- The place behind a character comes after the place before it, on the same line or the next. -/
theorem lt_advance (p : Position) (c : Char) : p < p.advance c := by
  rw [lt_def]; unfold advance
  split
  · left; exact Nat.lt_succ_self _
  · right; exact ⟨rfl, Nat.lt_succ_self _⟩

/-- The place behind a text never comes before the place where the text starts. -/
theorem le_after (p : Position) (cs : List Char) : p ≤ p.after cs := by
  induction cs generalizing p with
  | nil => exact le_refl p
  | cons c cs ih => exact le_trans (le_of_lt (lt_advance p c)) (ih _)

/-- The place behind a text that is not empty comes after the place where the text starts. -/
theorem lt_after {p : Position} {cs : List Char} (h : cs ≠ []) : p < p.after cs := by
  cases cs with
  | nil => exact absurd rfl h
  | cons c cs => exact lt_of_lt_of_le (lt_advance p c) (le_after _ cs)

end Position

/-! ## Positions of offsets -/

/-- The position of an offset is that of its own text's end, seen from the offset before it. -/
theorem positionAt_add (text : List Char) (a n : Nat) :
    positionAt text (a + n) = (positionAt text a).after ((text.drop a).take n) := by
  unfold positionAt
  rw [List.take_add, Position.after_append]

/-- The position behind the first part of a text. -/
theorem positionAt_append_length (u v : List Char) :
    positionAt (u ++ v) u.length = Position.zero.after u := by
  unfold positionAt
  rw [List.take_left]

/-- Later offsets of a text have later positions. -/
theorem positionAt_lt {text : List Char} {a b : Nat} (hab : a < b) (hb : b ≤ text.length) :
    positionAt text a < positionAt text b := by
  obtain ⟨n, rfl⟩ := Nat.exists_eq_add_of_lt hab
  rw [Nat.add_assoc, positionAt_add]
  refine Position.lt_after fun he => ?_
  have hlen := congrArg List.length he
  simp only [List.length_take, List.length_drop, List.length_nil] at hlen
  omega

/-- The positions of offsets never go back. -/
theorem positionAt_le (text : List Char) {a b : Nat} (hab : a ≤ b) :
    positionAt text a ≤ positionAt text b := by
  obtain ⟨n, rfl⟩ := Nat.exists_eq_add_of_le hab
  rw [positionAt_add]
  exact Position.le_after _ _

/-- Positions are in the order of their offsets. -/
theorem positionAt_lt_iff {text : List Char} {a b : Nat} (hb : b ≤ text.length) :
    positionAt text a < positionAt text b ↔ a < b := by
  constructor
  · intro hlt
    refine Nat.not_le.1 fun hle => ?_
    exact Position.lt_irrefl _ (Position.lt_of_lt_of_le hlt (positionAt_le text hle))
  · intro hlt
    exact positionAt_lt hlt hb

/-- Two offsets of a text with one position are the same offset. -/
theorem positionAt_inj {text : List Char} {a b : Nat} (ha : a ≤ text.length)
    (hb : b ≤ text.length) (h : positionAt text a = positionAt text b) : a = b := by
  rcases Nat.lt_trichotomy a b with hab | hab | hab
  · exact absurd (h ▸ positionAt_lt hab hb) (Position.lt_irrefl _)
  · exact hab
  · exact absurd (h ▸ positionAt_lt hab ha) (Position.lt_irrefl _)

/-! ## Offsets of positions -/

/-- Looking for the place behind the first `o` characters finds the offset `o`. -/
theorem offsetFrom?_after (here : Position) {text : List Char} {o : Nat} (ho : o ≤ text.length) :
    offsetFrom? (here.after (text.take o)) here text = some o := by
  induction text generalizing here o with
  | nil =>
    obtain rfl : o = 0 := by simpa using ho
    simp [offsetFrom?]
  | cons c cs ih =>
    cases o with
    | zero => simp [offsetFrom?]
    | succ o =>
      -- the search goes on past `here`, since the place it looks for comes later
      have hne : here ≠ (here.advance c).after (cs.take o) := fun he =>
        Position.lt_irrefl here (by
          conv => rhs; rw [he]
          exact Position.lt_of_lt_of_le (Position.lt_advance here c) (Position.le_after _ _))
      have hrec := ih (here.advance c) (Nat.le_of_succ_le_succ ho)
      simp [offsetFrom?, hne, hrec]

/-- Every offset of a text is found again from its position. -/
theorem offsetOf?_positionAt {text : List Char} {o : Nat} (ho : o ≤ text.length) :
    offsetOf? text (positionAt text o) = some o :=
  offsetFrom?_after .zero ho

/-- A position has the offset `o` exactly if `o` is an offset of the text with that position. -/
theorem offsetOf?_eq_some_iff {text : List Char} {p : Position} {o : Nat} :
    offsetOf? text p = some o ↔ o ≤ text.length ∧ positionAt text o = p := by
  constructor
  · exact fun h => ⟨le_length_of_offsetOf? h, positionAt_of_offsetOf? h⟩
  · rintro ⟨ho, rfl⟩
    exact offsetOf?_positionAt ho

end StackEditor
