import RecordQuery.Number.Digits
import RecordQuery.Time.Calendar

/-!
# Instants

Timestamps as `2024-01-31T12:00:00.5+02:00` name an instant. Different timestamps may name the same
one, and instants are ordered as they follow each other.
-/

namespace RecordQuery

/-- A point in time: whole seconds, counted from the start of the year 0 in universal time, and
nanoseconds after that. A leap second is the second before it with a billion nanoseconds more. -/
structure Instant where
  second : Int
  nanosecond : Nat
  deriving Repr, DecidableEq

instance : Ord Instant where
  compare s t := (compare s.second t.second).then (compare s.nanosecond t.nanosecond)

namespace Instant

/-- A number of exactly `width` digits at the head of a text, and what follows it. -/
def takeNumber (width : Nat) (text : List Char) : Option (Nat × List Char) :=
  let digits := text.take width
  if digits.length = width ∧ digits.all Char.isDigit then
    some (Number.digitsValue digits, text.drop width)
  else none

/-- What follows one of the given characters at the head of a text. -/
def skip (accepted : List Char) : List Char → Option (List Char)
  | [] => none
  | c :: rest => if c ∈ accepted then some rest else none

/-- An optional fraction of a second in nanoseconds, and what follows it. Digits beyond the ninth
are read over. -/
def takeFraction : List Char → Option (Nat × List Char)
  | '.' :: text =>
    let (digits, rest) := Number.takeDigits text
    let counted := digits.take 9
    if digits = [] then none
    else some (Number.digitsValue counted * Nat.pow 10 (9 - counted.length), rest)
  | text => some (0, text)

/-- The offset from universal time in minutes, up to the end of the text: `Z`, or a sign (also the
minus sign U+2212) with hours and minutes. -/
def readOffset? : List Char → Option Int
  | ['Z'] | ['z'] => some 0
  | sign :: text => do
    let (hours, text) ← takeNumber 2 text
    let text ← skip [':'] text
    let (minutes, text) ← takeNumber 2 text
    if text = [] ∧ hours ≤ 23 ∧ minutes ≤ 59 then
      if sign = '+' then some (60 * hours + minutes)
      else if sign = '-' ∨ sign = '\u2212' then some (-(60 * hours + minutes))
      else none
    else none
  | [] => none

/-- The instant at which clocks show a date and a time at an offset in minutes. -/
def ofClock (year month day hour minute second nanosecond : Nat) (offset : Int) : Instant where
  second := 86400 * Calendar.dayNumber year month day + 3600 * hour + 60 * minute
    + min second 59 - 60 * offset
  nanosecond := if second = 60 then nanosecond + 1000000000 else nanosecond

/-- Reads a timestamp. Year, month, day, hour, minute and second have a fixed width; `T`, `t` or
one space stands before the time. The second may be 60 in any minute. -/
def read? (text : List Char) : Option Instant := do
  let (year, text) ← takeNumber 4 text
  let text ← skip ['-'] text
  let (month, text) ← takeNumber 2 text
  let text ← skip ['-'] text
  let (day, text) ← takeNumber 2 text
  let text ← skip ['T', 't', ' '] text
  let (hour, text) ← takeNumber 2 text
  let text ← skip [':'] text
  let (minute, text) ← takeNumber 2 text
  let text ← skip [':'] text
  let (second, text) ← takeNumber 2 text
  let (nanosecond, text) ← takeFraction text
  let offset ← readOffset? text
  if 1 ≤ day ∧ day ≤ Calendar.monthLength year month ∧ hour ≤ 23 ∧ minute ≤ 59 ∧ second ≤ 60 then
    some (ofClock year month day hour minute second nanosecond offset)
  else none

end Instant

end RecordQuery
