import RecordQuery.Fault

/-!
# Connectives

How the children of a filter are combined.
-/

namespace RecordQuery

/-- A logical connective. -/
inductive Connective where
  | and
  | or
  deriving Repr, DecidableEq, Inhabited

namespace Connective

/-- The token of a connective. -/
def token : Connective → String
  | and => "and"
  | or => "or"

/-- The connective with a given token. Tokens are case-sensitive. -/
def ofToken (text : String) : Except Fault Connective :=
  if text = "and" then .ok and
  else if text = "or" then .ok or
  else .error (.connective text)

end Connective

end RecordQuery
