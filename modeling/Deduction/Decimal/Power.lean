/-
Two to a power, as messages show it: a whole number by its digits, a fraction as a decimal.
-/
import Deduction.Decimal.Shortest
import Deduction.Text.Integer

namespace Deduction.Decimal

/-- The least exponent that is too large for a power that is a fraction. Such a power is worked out in binary numbers
of 53 bits, and from here on the exponent would be rounded to 2^1024, which is none of them. -/
def exponentBound : Nat :=
  Nat.pow 2 1024 - Nat.pow 2 970

/-- Two to the power `n` as text. -/
def powerOfTwo (n : Int) : Except Text.NumberFault String :=
  if 0 ≤ n then Text.writeInteger (Nat.pow 2 n.toNat)
  else if exponentBound ≤ n.natAbs then .error .tooLarge
  else .ok (halves n.natAbs)

end Deduction.Decimal
