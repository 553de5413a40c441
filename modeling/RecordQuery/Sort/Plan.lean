import RecordQuery.Limits.Basic
import RecordQuery.Path

/-!
# Sort plans

Requested sort keys, and the plan that they become when all of them are valid. A plan is rendered as
an ordering clause: `age desc,name asc`.
-/

namespace RecordQuery

/-- The direction of a sort key. -/
inductive Direction where
  | ascending
  | descending
  deriving Repr, DecidableEq, Inhabited

namespace Direction

/-- The token of a direction. -/
def token : Direction → String
  | ascending => "asc"
  | descending => "desc"

/-- The direction with a given token. Tokens are case-sensitive. -/
def ofToken (text : String) : Except Fault Direction :=
  if text = "asc" then .ok ascending
  else if text = "desc" then .ok descending
  else .error (.direction text)

end Direction

/-- A sort key as it is requested. -/
structure KeyRequest where
  field : String := ""
  direction : String := ""
  deriving Repr, DecidableEq, Inhabited

/-- A field to order by, and the direction of the order. -/
structure SortKey where
  field : String
  direction : Direction
  deriving Repr, DecidableEq

namespace KeyRequest

/-- A request to order by a field in a given direction. -/
def along (direction : Direction) (field : String) : KeyRequest :=
  { field, direction := direction.token }

/-- The key that is requested, or the first thing wrong with it. -/
def toKey (strictPaths : Bool) (request : KeyRequest) : Except Fault SortKey := do
  if request.field = "" then
    throw (.field "")
  if strictPaths then
    discard (Path.parse request.field)
  let direction ← Direction.ofToken request.direction
  pure { field := request.field, direction }

end KeyRequest

/-- The text of a sort key. -/
def SortKey.render (key : SortKey) : String :=
  key.field ++ " " ++ key.direction.token

/-- Keys to order by. Later keys decide only where the earlier ones do not. -/
structure SortPlan where
  keys : List SortKey := []
  deriving Repr, DecidableEq, Inhabited

namespace SortPlan

/-- Builds a plan under limits from the requested keys, in their order. -/
def build (limits : Limits) (requests : List KeyRequest) : Except Fault SortPlan :=
  if limits.maxKeys < requests.length then
    .error (.tooManyKeys requests.length limits.maxKeys)
  else (requests.mapM (KeyRequest.toKey limits.strictPaths)).map SortPlan.mk

/-- Whether a plan leaves every order as it is. -/
def isIdentity (plan : SortPlan) : Bool :=
  plan.keys.isEmpty

/-- The ordering clause of a plan. -/
def render (plan : SortPlan) : String :=
  ",".intercalate (plan.keys.map SortKey.render)

end SortPlan

end RecordQuery
