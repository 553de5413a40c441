import RecordQuery.Fault

/-!
# Failures

What is asked of a collection fails with a fault, which is reported, or it breaks down together with
the routine that sorts.
-/

namespace RecordQuery

/-- The way in which something fails. -/
inductive Failure where
  /-- There is a fault to report. -/
  | fault (fault : Fault)
  /-- The routine that sorts has broken down. -/
  | breakdown
  deriving Repr, DecidableEq

/-- An outcome that has no answer only if there is a fault to report. -/
def reported {α : Type} (outcome : Except Fault α) : Except Failure α :=
  outcome.mapError .fault

end RecordQuery
