import Mathlib.Algebra.Ring.Nat
import StackEditor.Identifier

/-!
# Identifiers survive their text form

An identifier is written with a hyphen between groups of digits. Where the groups take up all of the
digits, the hyphens can be taken out again (`dehyphenate?_hyphenate`), and the digits are those of
the number, so a number of 128 bits is read back from its text (`uuidOfText?_uuidText`).
-/

namespace StackEditor

/-- The digits in groups, and a hyphen between two of them. -/
theorem length_hyphenate : ∀ {n : Nat} {ns : List Nat} {cs : List Char},
    cs.length = (n :: ns).sum → (hyphenate (n :: ns) cs).length = (n :: ns).sum + ns.length
  | n, [], cs, h => by
    simp only [List.sum_cons, List.sum_nil] at h
    rw [hyphenate, List.length_take]
    simp only [List.sum_cons, List.sum_nil, List.length_nil]
    omega
  | n, m :: ns, cs, h => by
    rw [List.sum_cons] at h
    have hdrop : (cs.drop n).length = (m :: ns).sum := by
      rw [List.length_drop]
      omega
    rw [hyphenate, List.length_append, List.length_cons, length_hyphenate hdrop, List.length_take]
    · simp only [List.sum_cons, List.length_cons] at h ⊢
      omega
    · nofun

/-- The hyphen behind a group is taken out. -/
theorem dehyphenate?_append {n m : Nat} {ns : List Nat} {group rest : List Char}
    (h : group.length = n) : dehyphenate? (n :: m :: ns) (group ++ '-' :: rest) =
      (dehyphenate? (m :: ns) rest).map (group ++ ·) := by
  simp [dehyphenate?, List.drop_left' h, List.take_left' h]

/-- The hyphens are taken out again. -/
theorem dehyphenate?_hyphenate : ∀ {ns : List Nat} {cs : List Char},
    cs.length = ns.sum → dehyphenate? ns (hyphenate ns cs) = some cs
  | [], cs, h => by
    obtain rfl := List.eq_nil_of_length_eq_zero h
    rfl
  | [n], cs, h => by
    have hn : cs.length = n := by simpa using h
    rw [hyphenate, dehyphenate?, List.take_of_length_le (Nat.le_of_eq hn), if_pos hn]
  | n :: m :: ns, cs, h => by
    rw [List.sum_cons] at h
    have htake : (cs.take n).length = n := List.length_take_of_le (by omega)
    have hdrop : (cs.drop n).length = (m :: ns).sum := by
      rw [List.length_drop]
      omega
    rw [hyphenate, dehyphenate?_append htake, dehyphenate?_hyphenate hdrop, Option.map_some,
      List.take_append_drop]
    nofun

/-- The digits of the text that is written. -/
theorem uuidDigits?_hyphenate {cs : List Char} (h : cs.length = 32) :
    uuidDigits? (hyphenate uuidGroups cs) = some cs := by
  have hsum : cs.length = uuidGroups.sum := h
  have hlength : (hyphenate uuidGroups cs).length = 36 := length_hyphenate hsum
  rw [uuidDigits?, if_neg (by omega), if_pos hlength, dehyphenate?_hyphenate hsum]

/-- The number of identifiers, which have 128 bits. -/
def uuidCount : Nat := Nat.pow 2 128

/-- A number of 128 bits is read back from its text. -/
theorem uuidOfText?_uuidText {n : Nat} (h : n < uuidCount) : uuidOfText? (uuidText n) = some n := by
  have hdigits := uuidDigits?_hyphenate (Text.length_hexDigits 32 n)
  have hmod : n % Nat.pow 16 32 = n := Nat.mod_eq_of_lt h
  rw [uuidOfText?, uuidText, String.toList_ofList, hdigits, Option.bind_eq_bind, Option.bind_some,
    Text.hexNumber?_hexDigits, hmod]

end StackEditor
