import RecordQuery.Number.Digits

/-!
# Decimals

A decimal is a signed natural times a power of ten. Its sign is kept apart from its digits, so that
minus zero is a decimal of its own.
-/

namespace RecordQuery

/-- The number `± mantissa * 10 ^ scale`. -/
structure Decimal where
  negative : Bool
  mantissa : Nat
  scale : Int
  deriving Repr, DecidableEq, Inhabited

/-- The decimal with a given run of digits before its point and another behind it, times a power
of ten. -/
def Decimal.ofDigits (negative : Bool) (whole fraction : List Char) (exponent : Int) : Decimal where
  negative
  mantissa := Number.digitsValue (whole ++ fraction)
  scale := exponent - fraction.length

/-- The decimal that equals an integer. -/
def Decimal.ofInt (n : Int) : Decimal where
  negative := n < 0
  mantissa := n.natAbs
  scale := 0

end RecordQuery
