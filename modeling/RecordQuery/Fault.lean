import RecordQuery.Json.Writer
import RecordQuery.Text.Quoted

/-!
# Faults

Everything that can go wrong with a query, with a stable code, a message, and the response that
reports it. A fault lies with the request unless it lies with the configuration or with a record.
-/

namespace RecordQuery

/-- The cause for which a query, or a configuration, was not accepted or could not be carried out. -/
inductive Fault where
  /-- A field is empty, or no field path. -/
  | field (text : String)
  /-- An operator is empty or unknown. -/
  | operator (text : String)
  /-- A filter with children has no connective, or an unknown one. -/
  | connective (text : String)
  /-- A sort key has an unknown direction. -/
  | direction (text : String)
  /-- A request is no query. -/
  | request (reason : String)
  /-- A filter is nested more deeply than `limit`. -/
  | tooDeep (limit : Nat)
  /-- A filter has more nodes than `limit`. -/
  | tooManyNodes (count limit : Nat)
  /-- A sort has more keys than `limit`. -/
  | tooManyKeys (count limit : Nat)
  /-- A configuration could not be read or is out of range. -/
  | configuration (reason : String)
  /-- A record could not be viewed. -/
  | record (reason : String)
  deriving Repr, DecidableEq

namespace Fault

/-- The code by which programs tell faults apart. -/
def code : Fault → String
  | field _ => "QUERY_INVALID_FIELD"
  | operator _ => "QUERY_INVALID_OPERATOR"
  | connective _ => "QUERY_INVALID_LOGIC"
  | direction _ => "QUERY_INVALID_SORT_DIRECTION"
  | request _ => "QUERY_INVALID_REQUEST"
  | tooDeep _ => "QUERY_FILTER_TOO_DEEP"
  | tooManyNodes _ _ => "QUERY_TOO_MANY_NODES"
  | tooManyKeys _ _ => "QUERY_TOO_MANY_SORT_KEYS"
  | configuration _ => "QUERY_CONFIG"
  | record _ => "QUERY_RECORD"

/-- What the message of a fault begins with. -/
def heading : Fault → String
  | field _ => "Invalid field: "
  | operator _ => "Invalid operator: "
  | connective _ => "Invalid logic: "
  | direction _ => "Invalid sort direction: "
  | request _ => "Invalid request: "
  | tooDeep _ => "Filter nesting exceeds maximum depth "
  | tooManyNodes _ _ => "Filter has "
  | tooManyKeys _ _ => "Sort has "
  | configuration _ => "Invalid configuration: "
  | record _ => "Record conversion failed: "

/-- What the message of a fault goes on with. Texts of the request are quoted. -/
def detail : Fault → String
  | field text | operator text | connective text | direction text => Text.quote text
  | request reason | configuration reason | record reason => reason
  | tooDeep limit => toString limit
  | tooManyNodes count limit => toString count ++ " nodes, maximum is " ++ toString limit
  | tooManyKeys count limit => toString count ++ " keys, maximum is " ++ toString limit

/-- The message that people read. -/
def message (fault : Fault) : String :=
  fault.heading ++ fault.detail

/-- Whether the fault lies with the request. -/
def isClientFault : Fault → Bool
  | configuration _ | record _ => false
  | _ => true

/-- The status of the response that reports a fault. -/
def status (fault : Fault) : Nat :=
  if fault.isClientFault then 400 else 500

/-- The body of the response that reports a fault. -/
def report (fault : Fault) : Record :=
  .object [("error", .string fault.message), ("code", .string fault.code),
    ("status", .number (.integer fault.status))]

end Fault

/-- A response to a request over HTTP. -/
structure Response where
  status : Nat
  contentType : String
  body : String
  deriving Repr, DecidableEq

/-- The response that reports a fault. -/
def Fault.response (fault : Fault) : Response where
  status := fault.status
  contentType := "application/json"
  body := fault.report.write

end RecordQuery
