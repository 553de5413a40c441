import RecordQuery.Filter
import RecordQuery.Limits.Basic
import RecordQuery.Path
import RecordQuery.Predicate.Expr

/-!
# Compiling filters

A filter is compiled to an expression node by node, in pre-order. The number of a node in this order
is its slot, the number of its parameter. The first node that is not as it should be makes the filter
fail.
-/

namespace RecordQuery.Filter

/-- The operator of a node that has a condition, after a look at its field. -/
def readOperator (strictPaths : Bool) (filter : Filter) : Except Fault Operator := do
  if filter.field = "" then
    throw (.field "")
  if strictPaths then
    discard (Path.parse filter.field)
  Operator.ofToken filter.operator

/-- The condition of a node with a given operator. A test for null needs no value; any other
operator without a value forms no condition. -/
def formCondition (filter : Filter) (op : Operator) (slot : Nat) : Option Condition :=
  match op.kind with
  | .nullTest => some (.nullTest filter.field (op == .isNotNull))
  | .comparison => if filter.hasValue then some (.compare filter.field op slot) else none
  | .method => if filter.hasValue then some (.method filter.field op slot) else none

/-- The condition of a node, checked. A node that only groups others has none. -/
def ownCondition (strictPaths : Bool) (filter : Filter) (slot : Nat) :
    Except Fault (Option Condition) :=
  if filter.isGrouping then pure none
  else (readOperator strictPaths filter).map (formCondition filter · slot)

/-- The connective of a node that has children. -/
def readConnective (filter : Filter) : Except Fault Connective :=
  match filter.connective with
  | none => .error (.connective "")
  | some token => Connective.ofToken token

mutual

/-- The expression of a filter whose root has a given slot, and the first slot behind it. -/
def compileFrom (strictPaths : Bool) : Filter → Nat → Except Fault (Expr × Nat)
  | filter@⟨_, _, _, _, []⟩, slot => do
    let condition ← ownCondition strictPaths filter slot
    pure (.leaf condition, slot + 1)
  | filter@⟨_, _, _, _, child :: children⟩, slot => do
    let condition ← ownCondition strictPaths filter slot
    let connective ← readConnective filter
    let (first, next) ← compileFrom strictPaths child (slot + 1)
    let (others, next) ← compileAllFrom strictPaths children next
    pure (.group condition connective (first :: others), next)

/-- The expressions of several filters, the first of which starts at a given slot, and the first
slot behind them all. -/
def compileAllFrom (strictPaths : Bool) : List Filter → Nat → Except Fault (List Expr × Nat)
  | [], slot => pure ([], slot)
  | filter :: filters, slot => do
    let (expr, next) ← compileFrom strictPaths filter slot
    let (exprs, next) ← compileAllFrom strictPaths filters next
    pure (expr :: exprs, next)

end

/-- Reports a filter that is nested too deeply, or else has too many nodes. -/
def checkSize (limits : Limits) (filter : Filter) : Except Fault Unit :=
  if limits.maxDepth < filter.depth then .error (.tooDeep limits.maxDepth)
  else if limits.maxNodes < filter.count then .error (.tooManyNodes filter.count limits.maxNodes)
  else .ok ()

/-- Compiles a filter under limits. -/
def compile (limits : Limits) (filter : Filter) : Except Fault Predicate := do
  filter.checkSize limits
  let (expr, _) ← filter.compileFrom limits.strictPaths 0
  pure { expr, parameters := filter.parameters }

end RecordQuery.Filter
