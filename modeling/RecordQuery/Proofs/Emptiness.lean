import RecordQuery.Proofs.Levels
import RecordQuery.Proofs.Nodes

/-!
# Expressions without conditions

An expression has no truth value exactly if none of its nodes has a condition, whatever groups and
connectives it has. A predicate with such an expression accepts every record.
-/

namespace RecordQuery

namespace Expr

variable {truth : Condition → Bool}

@[simp] theorem areEmpty_eq_all (exprs : List Expr) : areEmpty exprs = exprs.all isEmpty := by
  induction exprs with
  | nil => rfl
  | cons expr exprs ih => rw [areEmpty, ih, List.all_cons]

/-- Reading an expression leaves a level without a value only if it had none, and the expression has
no condition. -/
theorem value_readInto_eq_none_iff (expr : Expr) (level : Level) :
    (readInto truth expr level).value = none ↔ level.value = none ∧ expr.isEmpty = true := by
  induction expr using Expr.induction generalizing level with
  | leaf condition =>
    rw [readInto, Level.value_push_eq_none_iff, Option.map_eq_none_iff, isEmpty,
      Option.isNone_iff_eq_none]
  | group condition connective children ih =>
    have hall : ∀ level, (readAllInto truth connective children level).value = none ↔
        level.value = none ∧ children.all isEmpty = true := by
      refine forall_mem_induction (Q := fun exprs => ∀ level,
        (readAllInto truth connective exprs level).value = none ↔
          level.value = none ∧ exprs.all isEmpty = true) ?_ ?_ ih
      · intro level
        simp [readAllInto]
      · intro child exprs ihchild ihrest level
        rw [readAllInto, ihrest, ihchild, Level.value_join, List.all_cons, Bool.and_eq_true,
          and_assoc]
    rw [readInto, Level.value_push_eq_none_iff, Level.value_join, Level.value_push_eq_none_iff,
      hall, Option.map_eq_none_iff, isEmpty, areEmpty_eq_all, Bool.and_eq_true,
      Option.isNone_iff_eq_none]
    have hblank : ({} : Level).value = none := rfl
    simp only [hblank, true_and, and_assoc]

/-- An expression has no value exactly if it has no condition. -/
theorem value_eq_none_iff (expr : Expr) : expr.value truth = none ↔ expr.isEmpty = true := by
  rw [value, value_readInto_eq_none_iff]
  exact and_iff_right rfl

end Expr

/-- A predicate without a condition accepts every record. -/
theorem Predicate.accepts_of_isMatchAll {predicate : Predicate}
    (hmatchAll : predicate.isMatchAll = true) (record : Record) :
    predicate.accepts record = true := by
  have hvalue : predicate.expr.value (Condition.holds record predicate.parameters) = none :=
    (Expr.value_eq_none_iff predicate.expr).mpr hmatchAll
  rw [Predicate.accepts, hvalue]
  rfl

end RecordQuery
