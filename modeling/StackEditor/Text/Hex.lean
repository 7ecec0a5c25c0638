/-!
# Hexadecimal digits

Digits are written in lower case and read in either case. Writing has a fixed width, so reading
what was written gives back the number modulo `16 ^ width` (`hexNumber?_hexDigits`).
-/

namespace StackEditor.Text

/-- The value of a hexadecimal digit. -/
def hexValue? (c : Char) : Option Nat :=
  if '0' ≤ c ∧ c ≤ '9' then some (c.toNat - '0'.toNat)
  else if 'a' ≤ c ∧ c ≤ 'f' then some (c.toNat - 'a'.toNat + 10)
  else if 'A' ≤ c ∧ c ≤ 'F' then some (c.toNat - 'A'.toNat + 10)
  else none

/-- The digit of a value below sixteen. -/
def hexChar (n : Nat) : Char :=
  if n < 10 then Char.ofNat ('0'.toNat + n) else Char.ofNat ('a'.toNat + (n - 10))

/-- The last `width` digits of `n`, the most significant one first. -/
def hexDigits : Nat → Nat → List Char
  | 0, _ => []
  | width + 1, n => hexDigits width (n / 16) ++ [hexChar (n % 16)]

/-- The number that the digits `cs` write, behind digits worth `n`. -/
def hexNumberFrom? (n : Nat) : List Char → Option Nat
  | [] => some n
  | c :: cs => do hexNumberFrom? (16 * n + (← hexValue? c)) cs

/-- The number that hexadecimal digits write. -/
def hexNumber? (cs : List Char) : Option Nat := hexNumberFrom? 0 cs

/-- A digit has the value it was written for. -/
theorem hexValue?_hexChar {n : Nat} (h : n < 16) : hexValue? (hexChar n) = some n := by
  revert h
  revert n
  decide

theorem length_hexDigits (width n : Nat) : (hexDigits width n).length = width := by
  induction width generalizing n with
  | zero => rfl
  | succ w ih => simp [hexDigits, ih]

/-- A number is read from left to right. -/
theorem hexNumberFrom?_append (n : Nat) (cs ds : List Char) :
    hexNumberFrom? n (cs ++ ds) = (hexNumberFrom? n cs).bind (hexNumberFrom? · ds) := by
  induction cs generalizing n with
  | nil => rfl
  | cons c cs ih =>
    simp only [List.cons_append, hexNumberFrom?]
    cases hexValue? c with
    | none => rfl
    | some v => exact ih _

/-- Reading what was written gives back the number, as far as the digits go. -/
theorem hexNumber?_hexDigits (width n : Nat) :
    hexNumber? (hexDigits width n) = some (n % Nat.pow 16 width) := by
  unfold hexNumber?
  induction width generalizing n with
  | zero => simp [hexDigits, hexNumberFrom?, Nat.mod_one, Nat.pow]
  | succ w ih =>
    have hd : n % 16 < 16 := Nat.mod_lt _ (by decide)
    rw [hexDigits, hexNumberFrom?_append, ih]
    simp only [Option.bind_some, hexNumberFrom?, hexValue?_hexChar hd, Option.bind_eq_bind]
    have hp : Nat.pow 16 (w + 1) = 16 * Nat.pow 16 w := Nat.mul_comm _ _
    rw [hp, Nat.mod_mul, Nat.add_comm]

end StackEditor.Text
