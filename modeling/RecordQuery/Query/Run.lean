import RecordQuery.Collection
import RecordQuery.Log
import RecordQuery.Query.Basic

/-!
# Running queries

A query is carried out in two stages. First its filter and its sort keys are compiled; only if both
succeed the items are selected, and then ordered. Each step tells what it did.
-/

namespace RecordQuery.Query

variable {α : Type}

/-- The predicate of a query's filter, told. -/
def tellFilter (limits : Limits) (query : Query) : Logged (Option Predicate) :=
  .told (reported (query.compileFilter limits))
    (fun predicate => predicate.map fun p => .filterCompiled p.expression p.parameters.length)
    (fun fault => some (.filterRejected fault))

/-- The plan of a query's sort keys, told unless the query has none. -/
def tellKeys (limits : Limits) (query : Query) : Logged SortPlan :=
  .told (reported (query.compileKeys limits))
    (fun plan => query.keys.map fun _ => .planBuilt plan.render)
    (fun fault => some (.sortRejected fault))

/-- The items that match, told. A predicate that every record matches is not looked at. -/
def tellSelection (view : View α) (predicate : Option Predicate) (items : List α) :
    Logged (List α) :=
  match predicate with
  | none => .answer items
  | some predicate =>
    if predicate.isMatchAll then .told (.ok items) (fun _ => some .filterSkipped) (fun _ => none)
    else .told (reported (view.select predicate items))
      (fun kept => some (.recordsSelected items.length kept.length)) (fun _ => none)

/-- The items in order, told unless the plan leaves the order as it is. -/
def tellArrangement (sorter : Sorter) (view : View α) (plan : SortPlan) (items : List α) :
    Logged (List α) :=
  .told (view.arrange sorter plan items)
    (fun arranged =>
      if plan.isIdentity then none else some (.recordsArranged arranged.length plan.render))
    (fun _ => none)

/-- Carries out a query on a collection. -/
def run (sorter : Sorter) (limits : Limits) (view : View α) (items : List α) (query : Query) :
    Logged (List α) := do
  let predicate ← query.tellFilter limits
  let plan ← query.tellKeys limits
  let kept ← tellSelection view predicate items
  tellArrangement sorter view plan kept

/-- What a query answers on a collection. -/
def apply (sorter : Sorter) (limits : Limits) (view : View α) (items : List α) (query : Query) :
    Except Failure (List α) :=
  (query.run sorter limits view items).outcome

end RecordQuery.Query
