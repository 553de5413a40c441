import RecordQuery.Number.Decimal

/-!
# JSON values

The type of JSON values takes what a string literal stands for as a parameter. In a record every
string is a text. In a document as it was read, a string literal may also stand for no text at all:
its escapes can leave one half of a surrogate pair alone.
-/

namespace RecordQuery

/-- A number of a JSON value. Integers are kept apart from numbers with a point or an exponent.
Minus zero is no integer. -/
inductive Number where
  | integer (value : Int)
  | decimal (value : Decimal)
  deriving Repr, DecidableEq, Inhabited

/-- The decimal that equals a number. -/
def Number.toDecimal : Number → Decimal
  | integer n => .ofInt n
  | decimal d => d

/-- A JSON value whose strings are of type `σ`. Members stand in the order in which they were
given. -/
inductive Json (σ : Type) where
  | null
  | bool (value : Bool)
  | number (value : Number)
  | string (value : σ)
  | array (items : List (Json σ))
  | object (members : List (σ × Json σ))
  deriving Repr, BEq, Inhabited

/-- A record, in the form in which queries see it. -/
abbrev Record := Json String

/-- A JSON text as it was read. A string literal that stands for no text is `none`. -/
abbrev Document := Json (Option String)

namespace Json

variable {σ : Type}

/-- The value of a member of an object. -/
def member? [BEq σ] (name : σ) : Json σ → Option (Json σ)
  | object members => members.lookup name
  | _ => none

/-- The item of an array at a position, counted from zero. -/
def item? (position : Nat) : Json σ → Option (Json σ)
  | array items => items[position]?
  | _ => none

/-- Whether a value is `null`. -/
def isNull : Json σ → Bool
  | null => true
  | _ => false

end Json

end RecordQuery
