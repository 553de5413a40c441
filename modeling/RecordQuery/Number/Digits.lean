/-!
# Runs of decimal digits

The pieces from which numerals are read: a run of ASCII digits, a sign, and an exponent.
-/

namespace RecordQuery.Number

/-- The largest number that a word of 64 bits holds, `2 ^ 64 - 1`. -/
def maxWord : Nat := 18446744073709551615

/-- The number that a run of decimal digits spells. -/
def digitsValue (digits : List Char) : Nat :=
  Nat.ofDigitChars 10 digits 0

/-- The longest run of digits at the head of a text, and what follows it. -/
def takeDigits (text : List Char) : List Char × List Char :=
  (text.takeWhile Char.isDigit, text.dropWhile Char.isDigit)

/-- An optional sign at the head of a text, and what follows it. The sign is `true` for minus. -/
def takeSign : List Char → Bool × List Char
  | '-' :: rest => (true, rest)
  | '+' :: rest => (false, rest)
  | text => (false, text)

/-- An exponent at the head of a text, and what follows it: `e` or `E`, an optional sign and at
least one digit. -/
def takeExponent : List Char → Option (Int × List Char)
  | [] => none
  | mark :: text =>
    if mark = 'e' ∨ mark = 'E' then
      let (negative, text) := takeSign text
      let (digits, rest) := takeDigits text
      if digits = [] then none
      else some (if negative then -(digitsValue digits : Int) else digitsValue digits, rest)
    else none

end RecordQuery.Number
