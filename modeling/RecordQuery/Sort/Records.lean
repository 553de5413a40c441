import RecordQuery.Comparison
import RecordQuery.Failure
import RecordQuery.Sort.Plan
import RecordQuery.Sort.Sorter

/-!
# Ordering records

Records in the order of a plan. Where the plan is a total order of them, records that no key tells
apart keep the order in which they came.
-/

namespace RecordQuery

/-- The order of two records by one key. -/
def SortKey.compare (key : SortKey) (a b : Record) : Ordering :=
  let ordering := Comparison.compareValues (a.field? key.field) (b.field? key.field)
  match key.direction with
  | .ascending => ordering
  | .descending => ordering.swap

namespace SortPlan

/-- The order of two records by several keys: the first key that tells them apart decides. -/
def compareBy : List SortKey → Record → Record → Ordering
  | [], _, _ => .eq
  | key :: keys, a, b => (key.compare a b).then (compareBy keys a b)

/-- The positions of records in the order of a plan, as a sorting routine gives them. -/
def positions (sorter : Sorter) (plan : SortPlan) {count : Nat} (record : Fin count → Record) :
    Except Failure (List (Fin count)) :=
  match sorter.order? count fun i j => compareBy plan.keys (record i) (record j) with
  | some positions => .ok positions
  | none => .error .breakdown

/-- Orders items by the records in which form they are viewed. The routine is not asked if the plan
has no keys. -/
def sort {α : Type} (sorter : Sorter) (plan : SortPlan) (view : α → Record) (items : List α) :
    Except Failure (List α) :=
  if plan.isIdentity then .ok items
  else (plan.positions sorter fun i => view (items.get i)).map (List.map items.get)

end SortPlan

end RecordQuery
