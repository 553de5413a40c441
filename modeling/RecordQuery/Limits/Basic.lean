import RecordQuery.Fault

/-!
# Limits

Bounds on the requests that are accepted.
-/

namespace RecordQuery

/-- What a request may ask for. A filter without children has depth 1. -/
structure Limits where
  maxDepth : Nat := 64
  maxNodes : Nat := 1024
  maxKeys : Nat := 16
  /-- Whether every field has to be a field path. -/
  strictPaths : Bool := true
  deriving Repr, DecidableEq, Inhabited

namespace Limits

/-- Reports a limit that is zero. -/
def checkPositive (name : String) (limit : Nat) : Except Fault Unit :=
  if limit = 0 then .error (.configuration (name ++ " must be positive")) else .ok ()

/-- Reports the first limit that is zero. -/
def check (limits : Limits) : Except Fault Unit := do
  checkPositive "max_depth" limits.maxDepth
  checkPositive "max_nodes" limits.maxNodes
  checkPositive "max_sort_keys" limits.maxKeys

end Limits

end RecordQuery
