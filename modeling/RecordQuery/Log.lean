import RecordQuery.Failure

/-!
# Logs

What happens on the way to an answer is told in events. A logged answer carries the events in the
order in which they happened, and so does a failure.
-/

namespace RecordQuery

/-- How much an event matters. -/
inductive Severity where
  | debug
  | warning
  deriving Repr, DecidableEq

/-- The value of a detail of an event. -/
inductive Detail where
  | count (value : Nat)
  | text (value : String)
  deriving Repr, DecidableEq

/-- What can happen on the way to an answer. -/
inductive Event where
  | filterRejected (fault : Fault)
  | filterCompiled (expression : String) (parameters : Nat)
  | filterSkipped
  | sortRejected (fault : Fault)
  | planBuilt (ordering : String)
  | recordsSelected (before after : Nat)
  | recordsArranged (records : Nat) (ordering : String)
  deriving Repr, DecidableEq

namespace Event

/-- How much an event matters: rejections are warnings. -/
def severity : Event → Severity
  | filterRejected _ | sortRejected _ => .warning
  | _ => .debug

/-- The message of an event. -/
def message : Event → String
  | filterRejected _ => "Filter rejected"
  | filterCompiled _ _ => "Compiled filter"
  | filterSkipped => "Filter has no conditions, skipping"
  | sortRejected _ => "Sort rejected"
  | planBuilt _ => "Built sort plan"
  | recordsSelected _ _ => "Filtered records"
  | recordsArranged _ _ => "Sorted records"

/-- The details of an event, by name. -/
def details : Event → List (String × Detail)
  | filterRejected fault | sortRejected fault =>
    [("code", .text fault.code), ("error", .text fault.message)]
  | filterCompiled expression parameters =>
    [("expression", .text expression), ("parameters", .count parameters)]
  | filterSkipped => []
  | planBuilt ordering => [("ordering", .text ordering)]
  | recordsSelected before after => [("before", .count before), ("after", .count after)]
  | recordsArranged records ordering =>
    [("records", .count records), ("ordering", .text ordering)]

end Event

/-- An answer or a failure, with the events that led to it. -/
structure Logged (α : Type) where
  events : List Event
  outcome : Except Failure α

namespace Logged

variable {α β : Type}

/-- An answer without events. -/
def answer (value : α) : Logged α :=
  ⟨[], .ok value⟩

/-- An outcome with the event that tells of it, if there is one. A breakdown is not told of. -/
def told (outcome : Except Failure α) (success : α → Option Event)
    (failure : Fault → Option Event) : Logged α where
  events := match outcome with
    | .ok value => (success value).toList
    | .error (.fault fault) => (failure fault).toList
    | .error .breakdown => []
  outcome

/-- Goes on from an answer. After a failure nothing more happens. -/
def andThen (first : Logged α) (next : α → Logged β) : Logged β :=
  match first.outcome with
  | .ok value => ⟨first.events ++ (next value).events, (next value).outcome⟩
  | .error failure => ⟨first.events, .error failure⟩

instance : Monad Logged where
  pure := answer
  bind := andThen

end Logged

end RecordQuery
