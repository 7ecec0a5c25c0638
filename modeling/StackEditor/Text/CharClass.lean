/-!
# Character classes

A character class is a list of inclusive ranges of code points. Membership is a search through
the list, so a class can be read off its table and a table can be checked by evaluation.
-/

namespace StackEditor.Text

/-- A set of characters, given by inclusive ranges of code points. -/
structure CharClass where
  ranges : List (Nat × Nat)

/-- The class holds `c` if one of its ranges does. -/
def CharClass.holds (k : CharClass) (c : Char) : Bool :=
  k.ranges.any fun r => r.1 ≤ c.toNat && c.toNat ≤ r.2

theorem CharClass.holds_iff {k : CharClass} {c : Char} :
    k.holds c = true ↔ ∃ r ∈ k.ranges, r.1 ≤ c.toNat ∧ c.toNat ≤ r.2 := by
  simp [holds]

end StackEditor.Text
