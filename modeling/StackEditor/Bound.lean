/-!
# Bounds

The largest numbers of 32 and 64 bits. Line and column numbers, delays and counts that come from
outside stay within them; inside, numbers are natural numbers without a bound.
-/

namespace StackEditor

/-- The largest number of 32 bits. -/
def maxWord32 : Nat := 4294967295

/-- The largest number of 64 bits. -/
def maxWord64 : Nat := 18446744073709551615

theorem toNat_le_maxWord32 (n : UInt32) : n.toNat ≤ maxWord32 :=
  Nat.le_of_lt_succ n.toNat_lt

theorem toNat_le_maxWord64 (n : UInt64) : n.toNat ≤ maxWord64 :=
  Nat.le_of_lt_succ n.toNat_lt

end StackEditor
