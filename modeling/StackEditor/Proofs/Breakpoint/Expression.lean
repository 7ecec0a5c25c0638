import Mathlib.Data.List.DropRight
import StackEditor.Breakpoint.Error

/-!
# The expressions that breakpoints have

What the check of an expression lets pass, said without the check. `Trimmed` texts have no blank at
either end, and `Counts` is the grammar of the numbers that are read. `ExpressionFits` puts the two
together for the kinds of breakpoints, and `expressionFits_of_check` says that what passes fits.
-/

namespace StackEditor

namespace Text

/-- The text has a blank neither at its start nor at its end. -/
structure Trimmed (cs : List Char) : Prop where
  head : ∀ c ∈ cs.head?, isBlank c = false
  last : ∀ c ∈ cs.getLast?, isBlank c = false

/-- The text writes the number `n` in digits, perhaps behind one plus sign. It has 64 bits. -/
def Counts (cs : List Char) (n : Nat) : Prop :=
  ∃ digits, (cs = digits ∨ cs = '+' :: digits) ∧ digits ≠ [] ∧ (∀ c ∈ digits, c.isDigit) ∧
    numberOfDigits digits = n ∧ n ≤ maxWord64

theorem trimmed_trimBlanks (cs : List Char) : Trimmed (trimBlanks cs) := by
  have hstart : ∀ c ∈ (cs.dropWhile isBlank).head?, isBlank c = false := by
    intro c hc
    have hhead := List.head?_dropWhile_not isBlank cs
    rw [Option.mem_def.1 hc] at hhead
    simpa using hhead
  have hprefix : trimBlanks cs <+: cs.dropWhile isBlank :=
    List.rdropWhile_prefix isBlank (cs.dropWhile isBlank)
  constructor
  case head =>
    intro c hc
    obtain ⟨rest, hrest⟩ := List.head?_eq_some_iff.1 hc
    obtain ⟨behind, hbehind⟩ := hprefix
    refine hstart c ?_
    rw [← hbehind, hrest]
    rfl
  case last =>
    intro c hc
    obtain ⟨hne, rfl⟩ := List.mem_getLast?_eq_getLast hc
    exact eq_false_of_ne_true (List.rdropWhile_last_not isBlank (cs.dropWhile isBlank) hne)

/-- Exactly the numbers of the grammar are read. -/
theorem count?_eq_some_iff {text : String} {n : Nat} :
    count? text = some n ↔ Counts text.toList n := by
  have hdigits : ∀ digits : List Char,
      (if !digits.isEmpty && digits.all Char.isDigit && numberOfDigits digits ≤ maxWord64 then
        some (numberOfDigits digits) else none) = some n ↔
      digits ≠ [] ∧ (∀ c ∈ digits, c.isDigit) ∧ numberOfDigits digits = n ∧ n ≤ maxWord64 := by
    intro digits
    rw [Option.ite_none_right_eq_some]
    simp only [Bool.and_eq_true, Bool.not_eq_true', List.isEmpty_eq_false_iff, List.all_eq_true,
      decide_eq_true_eq, Option.some.injEq]
    constructor
    · rintro ⟨⟨⟨hne, hall⟩, hle⟩, rfl⟩
      exact ⟨hne, hall, rfl, hle⟩
    · rintro ⟨hne, hall, rfl, hle⟩
      exact ⟨⟨⟨hne, hall⟩, hle⟩, rfl⟩
  unfold count?
  generalize text.toList = cs
  dsimp only
  rw [hdigits]
  split
  next rest =>
    constructor
    · exact fun h => ⟨rest, .inr rfl, h⟩
    · rintro ⟨digits, rfl | hsame, h⟩
      · -- The plus sign is no digit, so it stands before the digits.
        exact absurd (h.2.1 '+' List.mem_cons_self) (by decide)
      · cases hsame
        exact h
  next hplus =>
    constructor
    · exact fun h => ⟨cs, .inl rfl, h⟩
    · rintro ⟨digits, rfl | hsame, h⟩
      · exact h
      · exact absurd hsame (hplus digits)

end Text

/-- The expression is one that a breakpoint of the kind can have: none if it is unconditional, else
a trimmed text that is not empty, and for a hit count one that writes a positive number. -/
structure ExpressionFits (kind : BreakpointKind) (expression : Option String) : Prop where
  none_iff : expression = none ↔ kind = .unconditional
  trimmed : ∀ e ∈ expression, e ≠ "" ∧ Text.Trimmed e.toList
  positive : kind = .hitCount → ∃ e ∈ expression, ∃ n, 0 < n ∧ Text.Counts e.toList n

/-- An expression that passes the check fits its kind. -/
theorem expressionFits_of_check {kind : BreakpointKind} {given expression : Option String}
    (h : checkExpression kind given = .ok expression) : ExpressionFits kind expression := by
  unfold checkExpression at h
  split at h
  next hneeds =>
    have hkind : kind ≠ .unconditional := of_decide_eq_true hneeds
    split at h
    · cases h
    next e hfilter =>
    split at h
    · cases h
    next hcount =>
    cases h
    obtain ⟨htrim, hne⟩ := Option.filter_eq_some_iff.1 hfilter
    obtain ⟨text, -, rfl⟩ := Option.map_eq_some_iff.1 htrim
    constructor
    case none_iff => simpa using hkind
    case trimmed =>
      intro e he
      cases he
      refine ⟨by simpa using hne, ?_⟩
      rw [Text.trim, String.toList_ofList]
      exact Text.trimmed_trimBlanks _
    case positive =>
      rintro rfl
      have hpositive : isHitCount (Text.trim text) = true := by simpa using hcount
      unfold isHitCount at hpositive
      split at hpositive
      · next n hn =>
        exact ⟨_, rfl, n, of_decide_eq_true hpositive, Text.count?_eq_some_iff.1 hn⟩
      · cases hpositive
  next hneeds =>
    have hkind : kind = .unconditional := by simpa [BreakpointKind.needsExpression] using hneeds
    subst hkind
    cases h
    exact ⟨by simp, by simp, nofun⟩

end StackEditor
