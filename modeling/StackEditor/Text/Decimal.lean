import StackEditor.Bound

/-!
# Decimal numbers

Writing and reading natural numbers with ASCII digits. `numberOfDigits_decimalDigits`: what was
written reads back.
-/

namespace StackEditor.Text

/-- The value of a digit. -/
def digitValue (c : Char) : Nat := c.toNat - '0'.toNat

/-- The digit of a value below ten. -/
def digitChar (n : Nat) : Char := Char.ofNat ('0'.toNat + n)

/-- The number that the digits `cs` write behind digits worth `n`. -/
def numberFrom (n : Nat) (cs : List Char) : Nat :=
  cs.foldl (fun m c => 10 * m + digitValue c) n

/-- The number that digits write. -/
def numberOfDigits (cs : List Char) : Nat := numberFrom 0 cs

/-- The digits of a number, without leading zeros. -/
def decimalDigits (n : Nat) : List Char :=
  if n < 10 then [digitChar n] else decimalDigits (n / 10) ++ [digitChar (n % 10)]

/-- A digit has the value it was written for. -/
theorem digitValue_digitChar {n : Nat} (h : n < 10) : digitValue (digitChar n) = n := by
  revert n
  decide

theorem isDigit_digitChar {n : Nat} (h : n < 10) : (digitChar n).isDigit = true := by
  revert n
  decide

/-- What was written reads back. -/
theorem numberOfDigits_decimalDigits (n : Nat) : numberOfDigits (decimalDigits n) = n := by
  fun_induction decimalDigits n with
  | case1 n h => simp [numberOfDigits, numberFrom, digitValue_digitChar h]
  | case2 n h ih =>
    have hd : n % 10 < 10 := Nat.mod_lt _ (by decide)
    unfold numberOfDigits numberFrom at ih ⊢
    rw [List.foldl_append, ih]
    simp only [List.foldl_cons, List.foldl_nil, digitValue_digitChar hd]
    omega

/-- A number is written with digits only. -/
theorem isDigit_of_mem_decimalDigits {n : Nat} {c : Char} (h : c ∈ decimalDigits n) :
    c.isDigit = true := by
  fun_induction decimalDigits n with
  | case1 n hn => rw [List.mem_singleton.1 h]; exact isDigit_digitChar hn
  | case2 n hn ih =>
    rcases List.mem_append.1 h with h | h
    · exact ih h
    · rw [List.mem_singleton.1 h]
      exact isDigit_digitChar (Nat.mod_lt _ (by decide))

/-- The text of a number. -/
def decimal (n : Nat) : String := String.ofList (decimalDigits n)

/-- The number of a text that holds digits only, perhaps behind one `+`, if it fits 64 bits. -/
def count? (text : String) : Option Nat :=
  let digits := match text.toList with
    | '+' :: rest => rest
    | cs => cs
  if !digits.isEmpty && digits.all Char.isDigit && numberOfDigits digits ≤ maxWord64 then
    some (numberOfDigits digits)
  else none

end StackEditor.Text
