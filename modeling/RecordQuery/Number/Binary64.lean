import RecordQuery.Number.Decimal

/-!
# Rounding to double precision

Numbers are compared as doubles. Every finite double is a whole number of units of `2 ^ -1074`, the
least positive one, so a double is held as its number of units and the order of doubles is the order
of integers. The infinities stand just where the next power of two would be.
-/

namespace RecordQuery

/-- A double other than NaN, as its number of units of `2 ^ -1074`. -/
structure Binary64 where
  units : Int
  deriving Repr, DecidableEq, Inhabited

instance : Ord Binary64 where
  compare x y := compare x.units y.units

namespace Binary64

/-- The number of units at which the finite doubles end: `2 ^ 1024`. -/
def ceiling : Nat := Nat.pow 2 2098

/-- A quotient rounded to the nearest natural, ties to the even one. -/
def roundHalfEven (numerator denominator : Nat) : Nat :=
  let quotient := numerator / denominator
  let twice := 2 * (numerator % denominator)
  if twice < denominator then quotient
  else if denominator < twice then quotient + 1
  else quotient + quotient % 2

/-- The gap between the doubles around a magnitude whose whole part is given in units: one unit
as long as 53 bits hold it, and then the power of two that leaves 53 bits. -/
def gap (whole : Nat) : Nat :=
  Nat.pow 2 (whole.log2 + 1 - 53)

/-- The double nearest to a quotient of naturals, in units. Ties go to the even one, and what
reaches the ceiling is infinite. -/
def magnitude (numerator denominator : Nat) : Nat :=
  let scaled := numerator * Nat.pow 2 1074
  let gap := gap (scaled / denominator)
  min (roundHalfEven scaled (denominator * gap) * gap) ceiling

/-- The scale of a decimal, kept within the powers of ten that can matter: beyond these bounds a
decimal other than zero is infinite, or nearer to zero than to any other double. -/
def boundedScale (d : Decimal) : Int :=
  max (-(d.mantissa.log2 + 400 : Int)) (min 400 d.scale)

/-- The double with a given sign and magnitude. -/
def signed (negative : Bool) (units : Nat) : Binary64 :=
  ⟨if negative then -(units : Int) else units⟩

/-- The double nearest to a decimal. -/
def nearest (d : Decimal) : Binary64 :=
  let scale := boundedScale d
  signed d.negative (magnitude (d.mantissa * Nat.pow 10 scale.toNat) (Nat.pow 10 (-scale).toNat))

/-- The infinity of a given sign. -/
def infinity (negative : Bool) : Binary64 :=
  signed negative ceiling

end Binary64

end RecordQuery
