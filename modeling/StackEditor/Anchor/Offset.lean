import StackEditor.Position

/-!
# Offsets and positions

An offset counts the characters before a place. `positionAt` and `offsetOf?` go from offsets to
positions and back; both count lines as `Position.after` does, so they undo each other.
-/

namespace StackEditor

/-- The position of an offset. -/
def positionAt (text : List Char) (offset : Nat) : Position :=
  Position.zero.after (text.take offset)

/-- The offset of `p` in a text that starts at `here`. -/
def offsetFrom? (p here : Position) : List Char → Option Nat
  | [] => if here = p then some 0 else none
  | c :: cs => if here = p then some 0 else (offsetFrom? p (here.advance c) cs).map (· + 1)

/-- The offset of a position, if the text has it. -/
def offsetOf? (text : List Char) (p : Position) : Option Nat :=
  offsetFrom? p .zero text

/-- The offset that is found lies in the text and has the position that was asked for. -/
theorem offsetFrom?_spec {p here : Position} {text : List Char} {o : Nat}
    (h : offsetFrom? p here text = some o) : o ≤ text.length ∧ here.after (text.take o) = p := by
  induction text generalizing here o with
  | nil =>
    simp only [offsetFrom?] at h
    split at h
    · cases h; simpa
    · cases h
  | cons c cs ih =>
    simp only [offsetFrom?] at h
    split at h
    · cases h; simpa
    · obtain ⟨o', ho', rfl⟩ := Option.map_eq_some_iff.1 h
      obtain ⟨hle, heq⟩ := ih ho'
      exact ⟨Nat.succ_le_succ hle, heq⟩

/-- A position that has an offset is the position of that offset. -/
theorem positionAt_of_offsetOf? {text : List Char} {p : Position} {o : Nat}
    (h : offsetOf? text p = some o) : positionAt text o = p :=
  (offsetFrom?_spec h).2

theorem le_length_of_offsetOf? {text : List Char} {p : Position} {o : Nat}
    (h : offsetOf? text p = some o) : o ≤ text.length :=
  (offsetFrom?_spec h).1

end StackEditor
