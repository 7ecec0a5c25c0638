import Mathlib.Data.List.TakeWhile
import Mathlib.Tactic.Abel
import StackEditor.Proofs.Lexeme.Pattern

/-!
# Numerals

The numerals are a regular language (`numeral`). A run of characters is taken off a text without
looking ahead, if what has to follow it does not start like it (`mem_run_mul`), and so is a sign
(`mem_sign_mul`). So it takes one walk over a text to tell if it is a numeral (`isNumeral_iff`).

Parsers of decimal numbers take more than that (`decimal`): a number may start with its point, and
there are words for infinity and for what is no number. The numerals are the decimal numbers that
start with a digit, but for the sign (`mem_numeral_iff`).
-/

open scoped Computability

namespace StackEditor.Lexeme

def sign : Language Char := oneOf (· ∈ ['+', '-'])

/-- The digits of ASCII. -/
def digit : Language Char := oneOf (·.isDigit = true)

def point : Language Char := oneOf (· = '.')

/-- The mark of an exponent, a sign or none, and at least one digit. -/
def exponent : Language Char := oneOf (· ∈ ['e', 'E']) * ((1 + sign) * (digit * digit∗))

/-- At least one digit, then perhaps a point and any number of digits, and perhaps an exponent. -/
def unsigned : Language Char := digit * digit∗ * ((1 + point * digit∗) * (1 + exponent))

/-- A numeral, with a sign or without. -/
def numeral : Language Char := (1 + sign) * unsigned

variable {l : Language Char} {text : List Char} {p : Char → Bool}

/-! ## Runs and signs -/

/-- What may be left out is empty or there. -/
theorem mem_one_add : text ∈ 1 + l ↔ text = [] ∨ text ∈ l := by
  rw [Language.mem_add, Language.mem_one]

/-- A run is taken off whole, if nothing that may follow it starts with a character of the run. -/
theorem mem_run_mul (hl : ∀ c rest, c :: rest ∈ l → p c = false) :
    text ∈ (oneOf (p · = true))∗ * l ↔ text.dropWhile p ∈ l := by
  rw [Language.mem_mul]
  constructor
  · rintro ⟨run, hrun, rest, hrest, rfl⟩
    have hstop : rest.dropWhile p = rest := by
      cases rest with
      | nil => rfl
      | cons c rest => rw [List.dropWhile_cons_of_neg (by simp [hl c rest hrest])]
    rwa [List.dropWhile_append_of_pos (mem_oneOf_star.1 hrun), hstop]
  · intro h
    exact ⟨_, mem_oneOf_star.2 fun c hc => List.mem_takeWhile_imp hc, _, h,
      List.takeWhile_append_dropWhile⟩

/-- A run of digits is taken off as far as it goes, if what may follow it starts with none. -/
theorem mem_digits_mul (hl : ∀ c rest, c :: rest ∈ l → c.isDigit = false) :
    text ∈ digit∗ * l ↔ text.dropWhile Char.isDigit ∈ l :=
  mem_run_mul hl

/-- A sign is taken off, if nothing that may follow it starts with one. -/
theorem mem_sign_mul (hl : ∀ c rest, c :: rest ∈ l → c ≠ '+' ∧ c ≠ '-') :
    text ∈ (1 + sign) * l ↔ dropSign text ∈ l := by
  rw [add_mul, one_mul, Language.mem_add, sign, mem_oneOf_mul]
  cases text with
  | nil => simp [dropSign]
  | cons c rest =>
    by_cases hc : c = '+' ∨ c = '-'
    · have hnot : c :: rest ∉ l := fun h => hc.elim (hl c rest h).1 (hl c rest h).2
      simp [dropSign, hc, hnot]
    · simp [dropSign, hc]

/-- One digit in front of the rest. -/
theorem mem_digit_mul : text ∈ digit * l ↔
    ∃ d rest, text = d :: rest ∧ d.isDigit = true ∧ rest ∈ l :=
  mem_oneOf_mul

/-- What starts with a digit starts with no sign. -/
theorem ne_sign_of_mem_digit_mul {c : Char} {rest : List Char} (h : c :: rest ∈ digit * l) :
    c ≠ '+' ∧ c ≠ '-' := by
  obtain ⟨d, tail, heq, hd, -⟩ := mem_digit_mul.1 h
  obtain ⟨rfl, -⟩ := List.cons.inj heq
  constructor
  · rintro rfl
    cases hd
  · rintro rfl
    cases hd

/-! ## Reading a numeral -/

/-- The test of a run of digits reads one digit and more. -/
theorem isDigits_iff : isDigits text = true ↔ text ∈ digit * digit∗ := by
  rw [digit, mem_oneOf_mul_star, isDigits]
  cases text with
  | nil => simp
  | cons c rest => simp

/-- An exponent is its letter, a sign that may be left out, and digits. -/
theorem mem_exponent : text ∈ exponent ↔
    ∃ c rest, text = c :: rest ∧ c ∈ ['e', 'E'] ∧ isDigits (dropSign rest) = true := by
  rw [exponent, mem_oneOf_mul]
  simp only [mem_sign_mul fun _ _ => ne_sign_of_mem_digit_mul, isDigits_iff]

/-- The test reads an exponent or nothing. -/
theorem isExponent_iff : isExponent text = true ↔ text ∈ 1 + exponent := by
  rw [mem_one_add, mem_exponent]
  cases text with
  | nil => simp [isExponent]
  | cons c rest => simp [isExponent]

/-- Behind the digits of a numeral there are no more of them. -/
theorem not_isDigit_of_mem_one_add_exponent {c : Char} {rest : List Char}
    (h : c :: rest ∈ 1 + exponent) : c.isDigit = false := by
  rw [mem_one_add, mem_exponent] at h
  rcases h with h | ⟨d, tail, heq, hd, -⟩
  · cases h
  · obtain ⟨rfl, -⟩ := List.cons.inj heq
    obtain rfl | rfl : c = 'e' ∨ c = 'E' := by simpa using hd
    · rfl
    · rfl

/-- What follows the whole digits is an exponent, or a point with digits and then one. -/
theorem mem_fraction : text ∈ (1 + point * digit∗) * (1 + exponent) ↔
    isExponent text = true ∨
      ∃ rest, text = '.' :: rest ∧ isExponent (rest.dropWhile Char.isDigit) = true := by
  rw [add_mul, one_mul, Language.mem_add, mul_assoc, point, mem_oneOf_mul]
  simp only [mem_digits_mul fun _ _ => not_isDigit_of_mem_one_add_exponent, isExponent_iff]
  simp

/-- The test reads what may follow the whole digits. -/
theorem isFraction_iff :
    isFraction text = true ↔ text ∈ (1 + point * digit∗) * (1 + exponent) := by
  rw [mem_fraction]
  unfold isFraction
  split
  · next rest =>
    have hpoint : ¬ isExponent ('.' :: rest) = true := by simp [isExponent]
    simp [hpoint]
  · next hpoint =>
    refine ⟨.inl, fun h => h.resolve_right ?_⟩
    rintro ⟨rest, rfl, -⟩
    exact hpoint rest rfl

/-- Behind its first digits a numeral goes on with no digit. -/
theorem not_isDigit_of_mem_fraction {c : Char} {rest : List Char}
    (h : c :: rest ∈ (1 + point * digit∗) * (1 + exponent)) : c.isDigit = false := by
  rcases mem_fraction.1 h with h | ⟨tail, heq, -⟩
  · exact not_isDigit_of_mem_one_add_exponent (isExponent_iff.1 h)
  · obtain ⟨rfl, -⟩ := List.cons.inj heq
    rfl

/-- A number without a sign does not start with one. -/
theorem ne_sign_of_mem_unsigned {c : Char} {rest : List Char} (h : c :: rest ∈ unsigned) :
    c ≠ '+' ∧ c ≠ '-' := by
  rw [unsigned, mul_assoc] at h
  exact ne_sign_of_mem_digit_mul h

/-- One walk over a text tells if it is a numeral. -/
theorem isNumeral_iff : isNumeral text = true ↔ text ∈ numeral := by
  rw [numeral, mem_sign_mul fun _ _ => ne_sign_of_mem_unsigned, unsigned, mul_assoc, mem_digit_mul,
    isNumeral]
  simp only [mem_digits_mul fun _ _ => not_isDigit_of_mem_fraction, ← isFraction_iff]
  cases dropSign text with
  | nil => simp
  | cons d rest => simp

/-! ## Decimal numbers -/

/-- The word, in small letters or capitals. -/
def spelled (word : String) : Language Char := {text | text.map Char.toLower = word.toList}

/-- Infinity, and what is no number. -/
def special : Language Char := spelled "inf" + spelled "infinity" + spelled "nan"

/-- Digits with a point among them, in front of them, behind them or none, and perhaps an
exponent. -/
def number : Language Char :=
  (digit * digit∗ + digit * digit∗ * (point * digit∗) + digit∗ * (point * (digit * digit∗))) *
    (1 + exponent)

/-- A decimal number, with a sign or without. -/
def decimal : Language Char := (1 + sign) * (special + number)

/-- Digits around a point start with a digit, or with the point if all of them are behind it. -/
theorem mantissa_eq :
    digit * digit∗ + digit * digit∗ * (point * digit∗) + digit∗ * (point * (digit * digit∗)) =
      digit * digit∗ * (1 + point * digit∗) + point * (digit * digit∗) := by
  have hstar : 1 + digit * digit∗ = digit∗ := Language.one_add_self_mul_kstar_eq_kstar digit
  have habsorb : digit∗ + digit * digit∗ = digit∗ :=
    calc digit∗ + digit * digit∗ = 1 + digit * digit∗ + digit * digit∗ := by rw [hstar]
      _ = digit∗ := by rw [add_assoc, add_idem, hstar]
  have hfront : digit∗ * (point * (digit * digit∗)) =
      point * (digit * digit∗) + digit * digit∗ * (point * (digit * digit∗)) := by
    conv => lhs; rw [← hstar, add_mul, one_mul, hstar]
  calc digit * digit∗ + digit * digit∗ * (point * digit∗) + digit∗ * (point * (digit * digit∗))
      = digit * digit∗ + digit * digit∗ * (point * (digit∗ + digit * digit∗)) +
          point * (digit * digit∗) := by
        rw [hfront, mul_add point, mul_add (digit * digit∗)]
        abel
    _ = digit * digit∗ * (1 + point * digit∗) + point * (digit * digit∗) := by
        rw [habsorb, mul_add, mul_one]

/-- A number starts with digits or with a point, and there is a digit in either case. -/
theorem number_eq : number = unsigned + point * (digit * digit∗) * (1 + exponent) := by
  rw [number, mantissa_eq, unsigned, add_mul, mul_assoc (digit * digit∗)]

/-- Digits are the same in capitals. -/
theorem toLower_of_isDigit {c : Char} (h : c.isDigit = true) : c.toLower = c := by
  simp only [Char.isDigit, Bool.and_eq_true, decide_eq_true_eq, ge_iff_le,
    UInt32.le_iff_toNat_le] at h
  refine dif_neg fun hupper => ?_
  have hle := UInt32.le_iff_toNat_le.1 hupper.1
  have hnine : '9'.val.toNat < 'A'.val.toNat := by decide
  omega

/-- The words for infinity and no number start with a letter. -/
theorem head_of_mem_special {c : Char} {rest : List Char} (h : c :: rest ∈ special) :
    c.isDigit = false ∧ c ≠ '+' ∧ c ≠ '-' := by
  have hhead : c.toLower = 'i' ∨ c.toLower = 'n' := by
    rcases h with (h | h) | h
    · exact .inl (List.cons.inj h).1
    · exact .inl (List.cons.inj h).1
    · exact .inr (List.cons.inj h).1
  refine ⟨Bool.eq_false_iff.2 fun hdigit => ?_, ?_, ?_⟩
  · rw [toLower_of_isDigit hdigit] at hhead
    rcases hhead with rfl | rfl <;> cases hdigit
  · rintro rfl
    revert hhead
    decide
  · rintro rfl
    revert hhead
    decide

/-- A decimal number without a sign starts with no sign, and if it starts with a digit, it is a
numeral. -/
theorem head_of_mem_decimal {c : Char} {rest : List Char} (h : c :: rest ∈ special + number) :
    c ≠ '+' ∧ c ≠ '-' ∧ (c.isDigit = true → c :: rest ∈ unsigned) := by
  rw [number_eq, Language.mem_add, Language.mem_add, mul_assoc, point, mem_oneOf_mul] at h
  rcases h with h | h | ⟨d, tail, heq, hpoint, -⟩
  · obtain ⟨hdigit, hplus, hminus⟩ := head_of_mem_special h
    exact ⟨hplus, hminus, fun hd => absurd hd (Bool.eq_false_iff.1 hdigit)⟩
  · obtain ⟨hplus, hminus⟩ := ne_sign_of_mem_unsigned h
    exact ⟨hplus, hminus, fun _ => h⟩
  · obtain ⟨rfl, -⟩ := List.cons.inj heq
    subst hpoint
    exact ⟨by decide, by decide, fun hd => by cases hd⟩

/-- The numerals are the decimal numbers that start with a digit, but for the sign. -/
theorem mem_numeral_iff : text ∈ numeral ↔
    (∃ d rest, dropSign text = d :: rest ∧ d.isDigit = true) ∧ text ∈ decimal := by
  have hsign : ∀ c rest, c :: rest ∈ special + number → c ≠ '+' ∧ c ≠ '-' := by
    intro c rest h
    obtain ⟨hplus, hminus, -⟩ := head_of_mem_decimal h
    exact ⟨hplus, hminus⟩
  rw [numeral, decimal, mem_sign_mul fun _ _ => ne_sign_of_mem_unsigned, mem_sign_mul hsign]
  constructor
  · intro h
    have hnumber : dropSign text ∈ special + number := by
      rw [number_eq]
      exact .inr (.inl h)
    rw [unsigned, mul_assoc, mem_digit_mul] at h
    obtain ⟨d, rest, heq, hd, -⟩ := h
    exact ⟨⟨d, rest, heq, hd⟩, hnumber⟩
  · rintro ⟨⟨d, rest, heq, hd⟩, h⟩
    rw [heq] at h ⊢
    exact (head_of_mem_decimal h).2.2 hd

end StackEditor.Lexeme
