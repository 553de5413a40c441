import RecordQuery.Number.Binary64

/-!
# Numerals in parameters

How a parameter spells a number: an optional sign, and then `inf`, `infinity` or `nan` in any case,
or decimal digits with an optional point and an optional exponent. Digits may be missing on one side
of the point.
-/

namespace RecordQuery

/-- What a numeral stands for. -/
inductive Numeral where
  | nan
  | infinite (negative : Bool)
  | finite (value : Decimal)
  deriving Repr, DecidableEq

namespace Numeral

/-- Digits with an optional point and exponent, up to the end of the text. -/
def decimal? (negative : Bool) (text : List Char) : Option Decimal :=
  let (whole, afterWhole) := Number.takeDigits text
  let (fraction, tail) := match afterWhole with
    | '.' :: rest => Number.takeDigits rest
    | rest => ([], rest)
  if whole = [] ∧ fraction = [] then none
  else match tail with
    | [] => some (.ofDigits negative whole fraction 0)
    | tail => match Number.takeExponent tail with
      | some (exponent, []) => some (.ofDigits negative whole fraction exponent)
      | _ => none

/-- Reads a numeral. -/
def read? (text : List Char) : Option Numeral :=
  let (negative, body) := Number.takeSign text
  let word := body.map Char.toLower
  if word = ['n', 'a', 'n'] then some .nan
  else if word = ['i', 'n', 'f'] ∨ word = ['i', 'n', 'f', 'i', 'n', 'i', 't', 'y'] then
    some (.infinite negative)
  else (decimal? negative body).map .finite

/-- The double nearest to a numeral. There is none for NaN, which compares with nothing. -/
def nearest? : Numeral → Option Binary64
  | nan => none
  | infinite negative => some (.infinity negative)
  | finite value => some (.nearest value)

end Numeral

end RecordQuery
