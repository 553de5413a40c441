import RecordQuery.Proofs.Emptiness
import RecordQuery.Proofs.Formulas

/-!
# Filters without conditions

Whether a filter comes to have a condition is seen before it is compiled: some node has a value, or
an operator that needs none.
-/

namespace RecordQuery

/-- An operator that is found has the token by which it was looked for. -/
theorem Operator.token_of_ofToken {text : String} {op : Operator}
    (hop : Operator.ofToken text = .ok op) : op.token = text := by
  unfold Operator.ofToken at hop
  split at hop
  · next other hfind =>
    obtain rfl := Except.ok.inj hop
    simpa using List.find?_some hfind
  · cases hop

namespace Filter

variable {strict : Bool} {filter : Filter}

/-- A node that only groups others forms no condition. -/
theorem hasCondition_of_isGrouping (hgrouping : filter.isGrouping = true) :
    filter.hasCondition = false := by
  simp only [isGrouping, Bool.and_eq_true, beq_iff_eq, Bool.not_eq_true'] at hgrouping
  obtain ⟨⟨_, hoperator⟩, hvalue⟩ := hgrouping
  rw [hasCondition, hoperator, hvalue]
  rfl

/-- A node that does not form a condition has none. -/
theorem formCondition_eq_none {op : Operator} (hcondition : filter.hasCondition = false)
    (hop : Operator.ofToken filter.operator = .ok op) (slot : Nat) :
    filter.formCondition op slot = none := by
  have htoken := Operator.token_of_ofToken hop
  rw [hasCondition, ← htoken] at hcondition
  unfold formCondition
  cases hvalue : filter.hasValue with
  | true => simp [hvalue] at hcondition
  | false =>
    rw [hvalue] at hcondition
    cases op with
    | isNull => simp at hcondition
    | isNotNull => simp at hcondition
    | _ => rfl

/-- The node of a compiled filter has a condition exactly if it forms one. -/
theorem eq_none_iff_of_ownCondition {slot : Nat} {condition : Option Condition}
    (hown : ownCondition strict filter slot = .ok condition) :
    condition = none ↔ filter.hasCondition = false := by
  rcases ownCondition_eq_ok hown with ⟨hgrouping, rfl⟩ | ⟨op, hread, rfl⟩
  · simp [hasCondition_of_isGrouping hgrouping]
  · obtain ⟨_, _, hop⟩ := readOperator_eq_ok hread
    constructor
    · intro hnone
      by_contra hcondition
      rw [Bool.not_eq_false] at hcondition
      obtain ⟨own, hform⟩ := exists_formCondition hcondition hop slot
      rw [hnone] at hform
      cases hform
    · exact fun hcondition => formCondition_eq_none hcondition hop slot

/-- A compiled expression has no condition exactly if no node of its filter forms one. -/
theorem isEmpty_iff_of_compileFrom {slot next : Nat} {expr : Expr}
    (hcompile : compileFrom strict filter slot = .ok (expr, next)) :
    expr.isEmpty = true ↔ ∀ node ∈ filter.flatten, node.hasCondition = false := by
  refine (compileFrom_ok_induction
    (P := fun filter _ expr => expr.isEmpty = true ↔
      ∀ node ∈ filter.flatten, node.hasCondition = false)
    (Q := fun filters _ exprs => exprs.all Expr.isEmpty = true ↔
      ∀ filter ∈ filters, ∀ node ∈ filter.flatten, node.hasCondition = false)
    ?leaf ?group ?nil ?cons hcompile).1
  case leaf =>
    intro filter slot condition hchildren hown
    rw [Expr.isEmpty, Option.isNone_iff_eq_none, eq_none_iff_of_ownCondition hown,
      forall_mem_flatten, hchildren]
    simp
  case group =>
    intro filter slot condition connective exprs _ hown _ hexprs
    rw [Expr.isEmpty, Bool.and_eq_true, Option.isNone_iff_eq_none, Expr.areEmpty_eq_all,
      eq_none_iff_of_ownCondition hown, hexprs, forall_mem_flatten]
  case nil => simp
  case cons =>
    intro filter filters slot expr exprs hfirst hrest
    rw [List.all_cons, Bool.and_eq_true, hfirst, hrest, List.forall_mem_cons]

/-- Every record matches a compiled filter without a look at it exactly if no node forms a
condition. -/
theorem isMatchAll_iff_of_compile {limits : Limits} {predicate : Predicate}
    (hcompile : filter.compile limits = .ok predicate) :
    predicate.isMatchAll = true ↔ ∀ node ∈ filter.flatten, node.hasCondition = false := by
  obtain ⟨_, next, hroot, _⟩ := compile_eq_ok hcompile
  exact isEmpty_iff_of_compileFrom hroot

end Filter

end RecordQuery
