import RecordQuery.Json.Form
import RecordQuery.Query.Basic

/-!
# Texts of queries

Queries are requested as JSON texts. Reading looks at the form of a request only: fields, operators,
connectives and directions are any texts.
-/

namespace RecordQuery

/-- How deeply the filter of a request may be nested. A request must not have more than 127 objects
and arrays open at once: its own, and two for every level of its filter, one for the node and one for
the children. What is read over may be nested more deeply. -/
def nestingLimit : Nat := 63

namespace KeyRequest

/-- The fields of a sort key. -/
def form : Form :=
  [["field"], ["direction", "dir"]]

/-- The sort key that a document gives. -/
def ofDocument? (document : Document) : Option KeyRequest := do
  let [field, direction] ← form.fields document | none
  some { field := ← Form.text field, direction := ← Form.text direction }

/-- A sort key as a value. -/
def toRecord (request : KeyRequest) : Record :=
  .object [("field", .string request.field), ("direction", .string request.direction)]

end KeyRequest

namespace Filter

/-- The fields of a filter. -/
def form : Form :=
  [["field"], ["operator"], ["value"], ["logic"], ["children", "filters"]]

/-- The filter that a document gives, if it has no more than a given number of levels. -/
def ofDocument? : Nat → Document → Option Filter
  | 0, _ => none
  | levels + 1, document => do
    let [field, operator, value, connective, children] ← form.fields document | none
    let field ← Form.text field
    let operator ← Form.text operator
    let value ← Form.optionalText value
    let connective ← Form.optionalText connective
    let items ← Form.items children
    let children ← items.mapM (ofDocument? levels)
    some { field, operator, value, connective, children }

/-- A member that is left out if it has no value. -/
def optionalMember (name : String) : Option String → List (String × Record)
  | none => []
  | some value => [(name, .string value)]

mutual

/-- A filter as a value. -/
def toRecord : Filter → Record
  | ⟨field, operator, value, connective, children⟩ =>
    .object ([("field", .string field), ("operator", .string operator)]
      ++ optionalMember "value" value ++ optionalMember "logic" connective
      ++ (if children.isEmpty then [] else [("children", .array (allToRecords children))]))

/-- Several filters as values. -/
def allToRecords : List Filter → List Record
  | [] => []
  | filter :: filters => toRecord filter :: allToRecords filters

end

end Filter

namespace Query

/-- The fields of a query. -/
def form : Form :=
  [["filter"], ["sort"]]

/-- The query that a document gives. -/
def ofDocument? (document : Document) : Option Query := do
  let [filter, keys] ← form.fields document | none
  let filter ← match filter with
    | none | some .null => some none
    | some document => (Filter.ofDocument? nestingLimit document).map some
  let keys ← match keys with
    | none | some .null => some none
    | some (.array items) => (items.mapM KeyRequest.ofDocument?).map some
    | some _ => none
  some { filter, keys }

/-- Reads a query from the text of a request. -/
def ofText (text : String) : Except Fault Query :=
  match (Document.ofText? text).bind ofDocument? with
  | some query => .ok query
  | none => .error (.request "not a query")

/-- A query as a value. Parts that are missing are left out. -/
def toRecord (query : Query) : Record :=
  .object ((query.filter.map fun filter => ("filter", filter.toRecord)).toList
    ++ (query.keys.map fun keys => ("sort", .array (keys.map KeyRequest.toRecord))).toList)

/-- The text of a query. -/
def toText (query : Query) : String :=
  query.toRecord.write

end Query

end RecordQuery
