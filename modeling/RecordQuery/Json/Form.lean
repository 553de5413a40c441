import RecordQuery.Json.Document

/-!
# Forms

A structure is read from a document in one of two ways: as an object with a member for each of its
fields, or as an array of the values of its first fields. A form lists the names of the fields in
order; a field may have several names.
-/

namespace RecordQuery

/-- The names of each field of a structure, in the order of the fields. -/
abbrev Form := List (List String)

namespace Form

/-- The one member that has one of the names of a field. Two such members contradict each other,
even if their values agree. -/
def pick (members : List (String × Document)) (names : List String) : Option (Option Document) :=
  match members.filter fun (name, _) => names.contains name with
  | [] => some none
  | [(_, value)] => some (some value)
  | _ => none

/-- The value given for each field, `none` where there is none. Members with other names are read
over; an array must not be longer than the form. -/
def fields (form : Form) : Document → Option (List (Option Document))
  | .object members => do
    let members ← members.mapM fun (name, value) => name.map (·, value)
    form.mapM (pick members)
  | .array items =>
    if items.length ≤ form.length then
      some (items.map some ++ List.replicate (form.length - items.length) none)
    else none
  | _ => none

/-- A text, empty if it is missing. -/
def text : Option Document → Option String
  | none => some ""
  | some (.string (some value)) => some value
  | _ => none

/-- A text that may be missing or `null`. -/
def optionalText : Option Document → Option (Option String)
  | none | some .null => some none
  | some (.string (some value)) => some (some value)
  | _ => none

/-- The items of an array, none if it is missing. -/
def items : Option Document → Option (List Document)
  | none => some []
  | some (.array items) => some items
  | _ => none

/-- A natural number that a word of 64 bits holds, with a value for where it is missing. -/
def natural (missing : Nat) : Option Document → Option Nat
  | none => some missing
  | some (.number (.integer (.ofNat value))) => if value ≤ Number.maxWord then some value else none
  | _ => none

/-- A truth value, with a value for where it is missing. -/
def flag (missing : Bool) : Option Document → Option Bool
  | none => some missing
  | some (.bool value) => some value
  | _ => none

end Form

end RecordQuery
