import RecordQuery.Json.Basic
import RecordQuery.Number.Numeral
import RecordQuery.Text.Blank
import RecordQuery.Time.Instant

/-!
# Comparing values

The order of values on which both conditions and sort keys rest. Numbers are ordered as doubles and
texts by their code points, but two texts that both name an instant are ordered as instants.
-/

namespace RecordQuery

/-- The double nearest to a number. -/
def Number.nearest (number : Number) : Binary64 :=
  .nearest number.toDecimal

namespace Comparison

/-- The order of texts. -/
def compareTexts (a b : String) : Ordering :=
  match Instant.read? a.toList, Instant.read? b.toList with
  | some s, some t => compare s t
  | _, _ => compare a b

/-- The place of a value among values of other types. What is missing comes first. -/
def rank : Option Record → Nat
  | none => 0
  | some .null => 1
  | some (.bool _) => 2
  | some (.number _) => 3
  | some (.string _) => 4
  | some (.array _) => 5
  | some (.object _) => 6

/-- The order of values that may be missing. Arrays count as equal to each other, and so do
objects. -/
def compareValues (a b : Option Record) : Ordering :=
  match a, b with
  | some (.bool x), some (.bool y) => compare x y
  | some (.number x), some (.number y) => compare x.nearest y.nearest
  | some (.string x), some (.string y) => compareTexts x y
  | a, b => compare (rank a) (rank b)

/-- The truth value that a parameter spells, between blanks. -/
def readBool? (parameter : String) : Option Bool :=
  let word := String.ofList (Text.trim parameter.toList)
  if word = "true" then some true
  else if word = "false" then some false
  else none

/-- The double that a parameter spells, between blanks. -/
def readNumber? (parameter : String) : Option Binary64 :=
  (Numeral.read? (Text.trim parameter.toList)).bind Numeral.nearest?

/-- How a value compares with a parameter, which is read as the value's type asks. There is no
answer if it cannot be read so, and none for null, arrays and objects. -/
def compareParameter (value : Record) (parameter : String) : Option Ordering :=
  match value with
  | .number x => (readNumber? parameter).map (compare x.nearest ·)
  | .bool x => (readBool? parameter).map (compare x ·)
  | .string x => some (compareTexts x parameter)
  | .null | .array _ | .object _ => none

end Comparison

end RecordQuery
