import RecordQuery.Predicate.Compile
import RecordQuery.Sort.Plan

/-!
# Queries

A query asks for the records that match a filter, in the order of sort keys. Each of the two may be
missing.
-/

namespace RecordQuery

/-- A request to select and order records. -/
structure Query where
  filter : Option Filter := none
  keys : Option (List KeyRequest) := none
  deriving Repr, BEq, Inhabited

namespace Query

/-- The query with another filter. -/
def withFilter (query : Query) (filter : Filter) : Query :=
  { query with filter := some filter }

/-- The query with one more sort key, behind the others. -/
def withKey (query : Query) (key : KeyRequest) : Query :=
  { query with keys := some (query.keys.getD [] ++ [key]) }

/-- The predicate of a query's filter, if it has one. -/
def compileFilter (limits : Limits) (query : Query) : Except Fault (Option Predicate) :=
  match query.filter with
  | none => pure none
  | some filter => (filter.compile limits).map some

/-- The plan of a query's sort keys. Without keys the order stays as it is. -/
def compileKeys (limits : Limits) (query : Query) : Except Fault SortPlan :=
  match query.keys with
  | none => pure {}
  | some requests => SortPlan.build limits requests

end Query

end RecordQuery
