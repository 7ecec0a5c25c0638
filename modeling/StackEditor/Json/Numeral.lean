import StackEditor.Bound
import StackEditor.Json.Basic
import StackEditor.Text.Decimal

/-!
# JSON numbers

A numeral is spelled as a sign, digits, a fraction and an exponent. A number that is needed must
also lie in the range of double precision, unless it is a natural number; a number that is passed
over need not.

The range is judged on a shortened number: its first digits, as many as fit 64 bits, and a power
of ten for the rest. Both are rounded to 53 bits, and the number is too large if their product
is, once rounded, beyond the largest double.
-/

namespace StackEditor.Json

/-! ## Spelling -/

/-- The exponent of a numeral: its sign, if it is written, and its digits. -/
structure Exponent where
  sign : Option Char
  digits : List Char

/-- The parts of a numeral. The fraction is empty if there is none. -/
structure Spelled where
  negative : Bool
  whole : List Char
  fraction : List Char
  exponent : Option Exponent

/-- The number of characters of an exponent, with its letter. -/
def Exponent.width (e : Exponent) : Nat :=
  1 + e.sign.toList.length + e.digits.length

/-- The number of characters of a numeral. -/
def Spelled.width (s : Spelled) : Nat :=
  (if s.negative then 1 else 0) + s.whole.length +
    (if s.fraction.isEmpty then 0 else 1 + s.fraction.length) +
    ((s.exponent.map Exponent.width).getD 0)

/-- The fault of a text that should go on with a digit and does not. -/
def digitMissing : List Char → Fault
  | [] => .cutShort
  | _ :: _ => .malformed

/-- The digits at the start of the text; there must be one. -/
def spellDigits (cs : List Char) : Except Fault (List Char) :=
  match cs.takeWhile Char.isDigit with
  | [] => .error (digitMissing cs)
  | ds => .ok ds

/-- The sign at the start of the text, if there is one. -/
def spellSign : List Char → Option Char
  | c :: _ => if c = '+' ∨ c = '-' then some c else none
  | [] => none

/-- The exponent at the start of the text, if there is one. -/
def spellExponent : List Char → Except Fault (Option Exponent)
  | c :: rest =>
    if c = 'e' ∨ c = 'E' then do
      let sign := spellSign rest
      let digits ← spellDigits (rest.drop sign.toList.length)
      return some ⟨sign, digits⟩
    else .ok none
  | [] => .ok none

/-- The fraction and the exponent at the start of the text, each if there is one. -/
def spellFraction : List Char → Except Fault (List Char × Option Exponent)
  | '.' :: rest => do
    let fraction ← spellDigits rest
    return (fraction, ← spellExponent (rest.drop fraction.length))
  | cs => do return ([], ← spellExponent cs)

/-- The numeral at the start of the text, without its sign. A leading zero stands alone. -/
def spellUnsigned (negative : Bool) (cs : List Char) : Except Fault Spelled := do
  let whole ← spellDigits cs
  if whole.head? = some '0' ∧ 1 < whole.length then throw .malformed
  let (fraction, exponent) ← spellFraction (cs.drop whole.length)
  return ⟨negative, whole, fraction, exponent⟩

/-- The numeral at the start of the text. -/
def spell : List Char → Except Fault Spelled
  | '-' :: rest => spellUnsigned true rest
  | cs => spellUnsigned false cs

/-! ## Value and range -/

/-- The digits behind a number worth `n`, as far as the result fits 64 bits, and how many of
them there are. -/
def absorb (n : Nat) : List Char → Nat × Nat
  | [] => (n, 0)
  | c :: cs =>
    let m := 10 * n + Text.digitValue c
    if m ≤ maxWord64 then
      let r := absorb m cs
      (r.1, r.2 + 1)
    else (n, 0)

/-- The nearest number with 53 significant bits; a tie goes to the even one. -/
def round53 (n : Nat) : Nat :=
  let unit := Nat.pow 2 ((n.log2 + 1) - 53)
  let low := n % unit
  let down := n / unit
  let up := if 2 * low < unit then 0 else if 2 * low = unit ∧ down % 2 = 0 then 0 else 1
  (down + up) * unit

/-- The smallest product that rounds beyond the largest double. -/
def doubleLimit : Nat := Nat.pow 2 1024 - Nat.pow 2 970

/-- The number `n · 10 ^ e` is too large for a double. -/
def isHuge (n : Nat) (e : Int) : Bool :=
  n ≠ 0 && 0 ≤ e && (308 < e || doubleLimit ≤ round53 n * round53 (Nat.pow 10 e.toNat))

/-- The exponent as a number. -/
def Exponent.value (e : Exponent) : Int :=
  if e.sign = some '-' then -(Text.numberOfDigits e.digits : Int)
  else (Text.numberOfDigits e.digits : Int)

namespace Spelled

/-- The value of the exponent; zero without one. -/
def power (s : Spelled) : Int := (s.exponent.map Exponent.value).getD 0

/-- The numeral is digits and nothing else. -/
def isPlain (s : Spelled) : Bool := !s.negative && s.fraction.isEmpty && s.exponent.isNone

/-- The number without rounding: its digits, and the power of ten that goes with them. -/
def exact (s : Spelled) : Json.Number :=
  .decimal s.negative (Text.numberOfDigits (s.whole ++ s.fraction)) (s.power - s.fraction.length)

/-- The numeral is a decimal beyond double precision. A whole number of at most 64 bits without
fraction and exponent is never judged. -/
def isOutOfRange (s : Spelled) : Bool :=
  let (n, taken) := absorb 0 s.whole
  let (m, more) := absorb n s.fraction
  isHuge m ((s.whole.length - taken : Nat) - more + s.power)

/-- The number that is meant. -/
def number (s : Spelled) : Except Fault Json.Number :=
  let n := Text.numberOfDigits s.whole
  if s.isPlain ∧ n ≤ maxWord64 then .ok (.natural n)
  else if s.isOutOfRange then .error .malformed
  else .ok s.exact

end Spelled

/-- A number as a text spells it. -/
structure Numeral where
  /-- The number, where it is needed. -/
  number : Except Fault Json.Number
  /-- Its width, where it is passed over. -/
  width : Except Fault Nat

/-- The number at the start of the text. Where it is passed over, every fault of its spelling
counts as malformed. -/
def Numeral.ofText (cs : List Char) : Numeral :=
  match spell cs with
  | .ok s => ⟨s.number, .ok s.width⟩
  | .error f => ⟨.error f, .error .malformed⟩

end StackEditor.Json
