import RecordQuery.Connective
import RecordQuery.Operator

/-!
# Expressions

What a filter is compiled to: conditions that refer to parameters by their number, in groups under
connectives. The text of an expression puts only the children of a group in parentheses. A node
without a condition leaves its place empty, so a connective may stand without an operand before it.
-/

namespace RecordQuery

/-- A condition on one field. -/
inductive Condition where
  /-- The value of the field is compared with a parameter. -/
  | compare (field : String) (op : Operator) (slot : Nat)
  /-- The field is null or missing, or neither if negated. -/
  | nullTest (field : String) (negated : Bool)
  /-- A method of the text in the field is called with a parameter. -/
  | method (field : String) (op : Operator) (slot : Nat)
  deriving Repr, DecidableEq

/-- The text of a condition. Parameters are written as `@` and their number. -/
def Condition.render : Condition → String
  | compare field op slot => field ++ " " ++ op.symbol ++ " @" ++ toString slot
  | nullTest field negated =>
    field ++ " " ++ (if negated then Operator.isNotNull else Operator.isNull).symbol
  | method field op slot =>
    "(" ++ (if op.isNegated then "!" else "") ++ field ++ "." ++ op.symbol
      ++ "(@" ++ toString slot ++ "))"

/-- An expression: a condition, if the node has one, and its children, if it is a group. -/
inductive Expr where
  | leaf (condition : Option Condition)
  | group (condition : Option Condition) (connective : Connective) (children : List Expr)
  deriving Repr, BEq, Inhabited

namespace Expr

/-- The condition of the node itself. -/
def condition : Expr → Option Condition
  | leaf condition => condition
  | group condition _ _ => condition

/-- The text of a node's condition, empty if it has none. -/
def renderOwn (condition : Option Condition) : String :=
  (condition.map Condition.render).getD ""

mutual

/-- The text of an expression. -/
def render : Expr → String
  | leaf condition => renderOwn condition
  | group condition connective children =>
    renderOwn condition ++ " " ++ connective.token ++ " ("
      ++ (" " ++ connective.token ++ " ").intercalate (renderAll children) ++ ")"

/-- The texts of several expressions. -/
def renderAll : List Expr → List String
  | [] => []
  | expr :: exprs => render expr :: renderAll exprs

end

mutual

/-- The nodes of an expression in pre-order, each with its level. The root is on a given level. -/
def outline (level : Nat) : Expr → List (Nat × Expr)
  | leaf condition => [(level, .leaf condition)]
  | group condition connective children =>
    (level, .group condition connective children) :: outlineAll (level + 1) children

/-- The nodes of several expressions in pre-order, one expression after the other. -/
def outlineAll (level : Nat) : List Expr → List (Nat × Expr)
  | [] => []
  | expr :: exprs => outline level expr ++ outlineAll level exprs

end

mutual

/-- Whether no node has a condition. -/
def isEmpty : Expr → Bool
  | leaf condition => condition.isNone
  | group condition _ children => condition.isNone && areEmpty children

/-- Whether no node of several expressions has a condition. -/
def areEmpty : List Expr → Bool
  | [] => true
  | expr :: exprs => isEmpty expr && areEmpty exprs

end

end Expr

/-- An expression with the parameters to which it refers. -/
structure Predicate where
  expr : Expr
  parameters : List String
  deriving Repr

namespace Predicate

/-- The text of a predicate's expression. -/
def expression (predicate : Predicate) : String :=
  predicate.expr.render

/-- Whether a predicate has no condition at all, so that every record matches it. -/
def isMatchAll (predicate : Predicate) : Bool :=
  predicate.expr.isEmpty

end Predicate

end RecordQuery
