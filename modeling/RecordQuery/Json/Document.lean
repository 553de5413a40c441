import RecordQuery.Json.Token

/-!
# Reading documents

Which sequences of tokens form a JSON value. The containers that are open at a point of the text form
a stack, so nesting may be of any depth.
-/

namespace RecordQuery.Document

/-- A container that has been opened and not yet closed, with what it holds so far, last first. An
object also has the name of the member whose value is being read. -/
inductive Frame where
  | array (items : List Document)
  | object (members : List (Option String × Document)) (name : Option String)

mutual

/-- The document of a text, at a point where a value is due. -/
def readValue : List Frame → List Token → Option Document
  | frames, .null :: tokens => readAfter frames .null tokens
  | frames, .bool value :: tokens => readAfter frames (.bool value) tokens
  | frames, .number value :: tokens => readAfter frames (.number value) tokens
  | frames, .string value :: tokens => readAfter frames (.string value) tokens
  | frames, .openArray :: .closeArray :: tokens => readAfter frames (.array []) tokens
  | frames, .openArray :: tokens => readValue (.array [] :: frames) tokens
  | frames, .openObject :: .closeObject :: tokens => readAfter frames (.object []) tokens
  | frames, .openObject :: .string name :: .colon :: tokens =>
    readValue (.object [] name :: frames) tokens
  | _, _ => none

/-- The document of a text, at a point behind a value. -/
def readAfter : List Frame → Document → List Token → Option Document
  | [], value, [] => some value
  | .array items :: frames, value, .comma :: tokens =>
    readValue (.array (value :: items) :: frames) tokens
  | .array items :: frames, value, .closeArray :: tokens =>
    readAfter frames (.array (value :: items).reverse) tokens
  | .object members name :: frames, value, .comma :: .string next :: .colon :: tokens =>
    readValue (.object ((name, value) :: members) next :: frames) tokens
  | .object members name :: frames, value, .closeObject :: tokens =>
    readAfter frames (.object ((name, value) :: members).reverse) tokens
  | _, _, _ => none

end

/-- The document that a sequence of tokens forms. -/
def ofTokens? (tokens : List Token) : Option Document :=
  readValue [] tokens

/-- Reads a JSON text. -/
def ofText? (text : String) : Option Document :=
  (Token.scan text.toList).bind ofTokens?

end RecordQuery.Document
