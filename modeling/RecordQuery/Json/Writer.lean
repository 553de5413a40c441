import RecordQuery.Json.Basic
import RecordQuery.Json.StringLiteral

/-!
# Writing JSON texts

The text of a value without gaps, with members in the order in which they were given.
-/

namespace RecordQuery

/-- The text of a number. -/
def Number.write : Number → String
  | integer n => toString n
  | decimal d =>
    (if d.negative then "-" else "") ++ toString d.mantissa ++ "e" ++ toString d.scale

namespace Json

mutual

/-- The text of a value. -/
def write : Record → String
  | null => "null"
  | bool true => "true"
  | bool false => "false"
  | number value => value.write
  | string value => StringLiteral.write value
  | array items => "[" ++ ",".intercalate (writeItems items) ++ "]"
  | object members => "\x7b" ++ ",".intercalate (writeMembers members) ++ "\x7d"

/-- The texts of the items of an array. -/
def writeItems : List Record → List String
  | [] => []
  | item :: items => write item :: writeItems items

/-- The texts of the members of an object. -/
def writeMembers : List (String × Record) → List String
  | [] => []
  | (name, value) :: members =>
    (StringLiteral.write name ++ ":" ++ write value) :: writeMembers members

end

end Json

end RecordQuery
