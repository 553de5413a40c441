import RecordQuery.Predicate.Matching
import RecordQuery.Sort.Records

/-!
# Collections

Selecting and ordering the items of a collection. Items are of any type; a view shows an item as a
record, and it may fail to. What is kept are the items themselves.
-/

namespace RecordQuery

/-- How the items of a collection are seen as records: the record of an item, or the reason why
there is none. -/
abbrev View (α : Type) := α → Except String Record

namespace View

variable {α : Type}

/-- The record of an item. -/
def record (view : View α) (item : α) : Except Fault Record :=
  (view item).mapError Fault.record

/-- The items that match a predicate, in their order. Every item is viewed. -/
def select (view : View α) (predicate : Predicate) : List α → Except Fault (List α)
  | [] => pure []
  | item :: items => do
    let record ← view.record item
    let kept ← view.select predicate items
    pure (if predicate.accepts record then item :: kept else kept)

/-- The items in the order of a plan. No item is viewed if the plan leaves the order as it is. -/
def arrange (sorter : Sorter) (view : View α) (plan : SortPlan) (items : List α) :
    Except Failure (List α) :=
  if plan.isIdentity then pure items
  else do
    let viewed ← reported (items.mapM fun item => (view.record item).map (·, item))
    (plan.sort sorter (·.1) viewed).map (List.map (·.2))

end View

end RecordQuery
