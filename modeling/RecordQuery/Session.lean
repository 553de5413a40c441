import RecordQuery.Query.Run

/-!
# Sessions

Actions that are attempted on one collection, one after the other. An action that fails, in whatever
way, leaves the collection as it was, and the next one starts from there.
-/

namespace RecordQuery

variable {α : Type}

/-- Something that can be done to a collection. -/
inductive Action where
  /-- A query is carried out under limits. -/
  | query (limits : Limits) (asked : Query)
  /-- The items that match a predicate are kept. -/
  | select (predicate : Predicate)
  /-- The items are put in the order of a plan, if all of them can be viewed. -/
  | arrange (plan : SortPlan)
  /-- The items are put in the order of a plan, as if those that cannot be viewed were null. -/
  | sort (plan : SortPlan)

/-- The record of an item, or null if it has none. -/
def View.recordOrNull (view : View α) (item : α) : Record :=
  match view item with
  | .ok record => record
  | .error _ => .null

/-- What an action makes of a collection. -/
def Action.perform (sorter : Sorter) (view : View α) (items : List α) :
    Action → Except Failure (List α)
  | .query limits asked => asked.apply sorter limits view items
  | .select predicate => reported (view.select predicate items)
  | .arrange plan => view.arrange sorter plan items
  | .sort plan => plan.sort sorter view.recordOrNull items

namespace Session

/-- The collection that an attempt leaves behind: after a failure, the one that was there before. -/
def collectionAfter (items : List α) : Except Failure (List α) → List α
  | .ok changed => changed
  | .error _ => items

/-- The outcomes of several attempts, each with the collection that it leaves behind. An action may
be at fault from the start. -/
def run (sorter : Sorter) (view : View α) : List (Except Fault Action) → List α →
    List (Except Failure (List α) × List α)
  | [], _ => []
  | action :: actions, items =>
    let outcome := reported action >>= Action.perform sorter view items
    let left := collectionAfter items outcome
    (outcome, left) :: run sorter view actions left

end Session

end RecordQuery
