import RecordQuery.Comparison
import RecordQuery.Path
import RecordQuery.Predicate.Expr
import RecordQuery.Text.Search

/-!
# Matching records

Which records match a predicate. The truth of an expression is that of its text: what stands between
two parentheses is one level, `and` binds more tightly than `or` in it, and operands without a
condition count as not there.
-/

namespace RecordQuery

/-- Whether an operator holds of a value that compares in a given way with its parameter. -/
def Operator.accepts : Operator → Ordering → Bool
  | equal, ordering => ordering == .eq
  | unequal, ordering => ordering != .eq
  | less, ordering => ordering == .lt
  | atMost, ordering => ordering != .gt
  | greater, ordering => ordering == .gt
  | atLeast, ordering => ordering != .lt
  | _, _ => false

/-- Whether a comparison of a value with a parameter holds. Null differs from every parameter, and
compares in no other way. -/
def Operator.compares (op : Operator) (value : Record) (parameter : String) : Bool :=
  if value.isNull then op == .unequal
  else match Comparison.compareParameter value parameter with
    | some ordering => op.accepts ordering
    | none => false

/-- Whether a method of a text holds of a parameter. -/
def Operator.hits (op : Operator) (text parameter : String) : Bool :=
  let found := match op with
    | startsWith => parameter.toList.isPrefixOf text.toList
    | endsWith => parameter.toList.isSuffixOf text.toList
    | _ => Text.occursIn parameter.toList text.toList
  found != op.isNegated

/-- Whether a condition holds of a record. A condition on a field or a parameter that is missing
does not hold, except for the test that it is null. -/
def Condition.holds (record : Record) (parameters : List String) : Condition → Bool
  | compare field op slot =>
    match record.field? field, parameters[slot]? with
    | some value, some parameter => op.compares value parameter
    | _, _ => false
  | nullTest field negated => ((record.field? field).all Json.isNull) != negated
  | method field op slot =>
    match record.field? field, parameters[slot]? with
    | some (.string text), some parameter => op.hits text parameter
    | _, _ => false

/-- Two operands under `and`, each of which may be absent. -/
def bothOf : Option Bool → Option Bool → Option Bool
  | some a, some b => some (a && b)
  | some a, none => some a
  | none, b => b

/-- Two operands under `or`, each of which may be absent. -/
def eitherOf : Option Bool → Option Bool → Option Bool
  | some a, some b => some (a || b)
  | some a, none => some a
  | none, b => b

/-- What has been read of a level, from left to right. Each `or` closes a clause. -/
structure Level where
  /-- Whether one of the closed clauses holds, if there are any with an operand. -/
  closed : Option Bool := none
  /-- Whether the operands since the last `or` hold, if there are any. -/
  clause : Option Bool := none
  deriving Repr, DecidableEq

namespace Level

/-- The level with one more operand. -/
def push (level : Level) (operand : Option Bool) : Level :=
  { level with clause := bothOf level.clause operand }

/-- The level with one more connective. -/
def join (level : Level) : Connective → Level
  | .and => level
  | .or => { closed := eitherOf level.closed level.clause }

/-- Whether the level holds, if it has an operand. -/
def value (level : Level) : Option Bool :=
  eitherOf level.closed level.clause

end Level

namespace Expr

mutual

/-- Reads an expression into a level, for given truths of its conditions: the condition of the node,
and behind the connective its children as one operand. -/
def readInto (truth : Condition → Bool) : Expr → Level → Level
  | leaf condition, level => level.push (condition.map truth)
  | group condition connective children, level =>
    ((level.push (condition.map truth)).join connective).push
      (readAllInto truth connective children {}).value

/-- Reads several expressions into a level, each behind a connective. On a level that has not begun
a connective changes nothing. -/
def readAllInto (truth : Condition → Bool) (connective : Connective) : List Expr → Level → Level
  | [], level => level
  | expr :: exprs, level =>
    readAllInto truth connective exprs (readInto truth expr (level.join connective))

end

/-- Whether an expression holds, if it has a condition. -/
def value (truth : Condition → Bool) (expr : Expr) : Option Bool :=
  (readInto truth expr {}).value

end Expr

/-- Whether a record matches a predicate. A predicate without a condition matches every record. -/
def Predicate.accepts (predicate : Predicate) (record : Record) : Bool :=
  (predicate.expr.value (Condition.holds record predicate.parameters)).getD true

end RecordQuery
