import RecordQuery.Fault
import RecordQuery.Number.Digits

/-!
# Field paths

A field path names a place in a record: `age`, `address.city`, `orders[2].lines[0].sku`. It is a
sequence of segments with a dot between them; a segment is a name with any number of positions in
brackets. A path that leads nowhere in a record resolves to nothing.
-/

namespace RecordQuery

/-- A part of a path between dots: a member of an object, and positions in nested arrays. -/
structure Segment where
  name : String
  positions : List Nat
  deriving Repr, DecidableEq

namespace Segment

/-- The start of a name: an ASCII letter or an underscore. -/
def isNameStart (c : Char) : Bool :=
  c.isAlpha || c == '_'

/-- What a name goes on with: ASCII letters, digits and underscores. -/
def isNamePart (c : Char) : Bool :=
  c.isAlphanum || c == '_'

/-- Whether a text can name a member. -/
def isName : List Char → Bool
  | [] => false
  | c :: rest => isNameStart c && rest.all isNamePart

/-- Reads a position behind its opening bracket: digits and a closing bracket. The digits must not
spell more than a word of 64 bits holds. -/
def readPosition? (text : List Char) : Option Nat :=
  let digits := text.dropLast
  if text.getLast? = some ']' ∧ digits ≠ [] ∧ digits.all Char.isDigit
      ∧ Number.digitsValue digits ≤ Number.maxWord then
    some (Number.digitsValue digits)
  else none

/-- Reads a segment: what stands before the first opening bracket is the name, and behind every
opening bracket stands a position. -/
def read? (text : List Char) : Option Segment :=
  match text.splitOn '[' with
  | [] => none
  | name :: brackets =>
    if isName name then
      (brackets.mapM readPosition?).map fun positions => ⟨String.ofList name, positions⟩
    else none

/-- A position in brackets. -/
def renderPosition (position : Nat) : String :=
  "[" ++ toString position ++ "]"

/-- The text of a segment. -/
def render (segment : Segment) : String :=
  segment.name ++ String.join (segment.positions.map renderPosition)

end Segment

/-- One step from a value into a part of it. -/
inductive Step where
  | key (name : String)
  | position (index : Nat)
  deriving Repr, DecidableEq

/-- The part of a value to which a step leads. -/
def Step.follow? (value : Record) : Step → Option Record
  | key name => value.member? name
  | position index => value.item? index

/-- The steps of a segment: into a member, and then to positions. -/
def Segment.steps (segment : Segment) : List Step :=
  .key segment.name :: segment.positions.map .position

/-- A place in a record, given by its segments. -/
structure Path where
  segments : List Segment
  deriving Repr, DecidableEq

namespace Path

/-- Reads a path, segment by segment. -/
def read? (text : List Char) : Option Path :=
  ((text.splitOn '.').mapM Segment.read?).map Path.mk

/-- Reads a path, or reports the field that is none. -/
def parse (field : String) : Except Fault Path :=
  match read? field.toList with
  | some path => .ok path
  | none => .error (.field field)

/-- The text of a path. -/
def render (path : Path) : String :=
  ".".intercalate (path.segments.map Segment.render)

/-- The steps of a path, in order. -/
def steps (path : Path) : List Step :=
  path.segments.flatMap Segment.steps

/-- The value at a place in a record. -/
def resolve? (path : Path) (record : Record) : Option Record :=
  path.steps.foldlM Step.follow? record

end Path

/-- The value of a field in a record. A field that is no path has no value. -/
def Json.field? (field : String) (record : Record) : Option Record :=
  (Path.read? field.toList).bind (·.resolve? record)

end RecordQuery
