import RecordQuery.Predicate.Matching
import RecordQuery.Proofs.Compilation

/-!
# The meaning of filters

What a filter means for a record, told from the filter itself: every condition is taken with the
value of its own node. A compiled predicate accepts the records of which its filter is true, so laws
about matching can be proved by induction on filters, without expressions and slots.
-/

namespace RecordQuery.Filter

/-- Whether the condition of a node itself holds, if it has one. -/
def ownMeaning (record : Record) (filter : Filter) : Option Bool :=
  if filter.isGrouping then none
  else match Operator.ofToken filter.operator with
    | .ok op => (filter.formCondition op 0).map (Condition.holds record [filter.parameter])
    | .error _ => none

mutual

/-- Reads a filter into a level, for a given record: the condition of the node, and behind the
connective its children as one operand. -/
def readInto (record : Record) : Filter → Level → Level
  | filter@⟨_, _, _, _, children⟩, level =>
    match children.isEmpty, readConnective filter with
    | false, .ok connective =>
      ((level.push (ownMeaning record filter)).join connective).push
        (readAllInto record connective children {}).value
    | _, _ => level.push (ownMeaning record filter)

/-- Reads several filters into a level, each behind a connective. -/
def readAllInto (record : Record) (connective : Connective) : List Filter → Level → Level
  | [], level => level
  | filter :: filters, level =>
    readAllInto record connective filters (readInto record filter (level.join connective))

end

/-- Whether a filter is true of a record, if it has a condition. -/
def meaning (record : Record) (filter : Filter) : Option Bool :=
  (filter.readInto record {}).value

variable {record : Record}

/-- A node without children is read as its condition. -/
theorem readInto_of_children_eq_nil {filter : Filter} (hchildren : filter.children = [])
    (level : Level) :
    filter.readInto record level = level.push (filter.ownMeaning record) := by
  obtain ⟨field, operator, value, connective, children⟩ := filter
  obtain rfl : children = [] := hchildren
  rw [readInto]
  rfl

/-- A node with children is read as its condition and, behind its connective, its children. -/
theorem readInto_of_children_ne_nil {filter : Filter} {connective : Connective}
    (hchildren : filter.children ≠ []) (hconnective : readConnective filter = .ok connective)
    (level : Level) :
    filter.readInto record level =
      ((level.push (filter.ownMeaning record)).join connective).push
        (readAllInto record connective filter.children {}).value := by
  obtain ⟨field, operator, value, token, _ | ⟨child, children⟩⟩ := filter
  · exact absurd rfl hchildren
  · rw [readInto, hconnective]
    rfl

/-- A condition whose slot holds the parameter of its node holds as it does with this parameter
alone. -/
theorem formCondition_map_holds {filter : Filter} {parameters : List String} {slot : Nat}
    (op : Operator) (hslot : parameters[slot]? = some filter.parameter) :
    (filter.formCondition op slot).map (Condition.holds record parameters) =
      (filter.formCondition op 0).map (Condition.holds record [filter.parameter]) := by
  unfold formCondition
  cases op.kind with
  | nullTest => rfl
  | comparison =>
    cases filter.hasValue with
    | false => rfl
    | true => simp [Condition.holds, hslot]
  | method =>
    cases filter.hasValue with
    | false => rfl
    | true => simp [Condition.holds, hslot]

/-- The condition of a compiled node means what the node's own condition means. -/
theorem map_holds_of_ownCondition {strict : Bool} {filter : Filter} {parameters : List String}
    {slot : Nat} {condition : Option Condition}
    (hown : ownCondition strict filter slot = .ok condition)
    (hslot : parameters[slot]? = some filter.parameter) :
    condition.map (Condition.holds record parameters) = filter.ownMeaning record := by
  unfold ownMeaning
  rcases ownCondition_eq_ok hown with ⟨hgrouping, rfl⟩ | ⟨op, hread, rfl⟩
  · rw [if_pos hgrouping]
    rfl
  · obtain ⟨hfield, _, hop⟩ := readOperator_eq_ok hread
    have hgrouping : filter.isGrouping = false := by simp [isGrouping, hfield]
    rw [hgrouping, hop]
    exact formCondition_map_holds op hslot

/-- The parameter of the root is the first one of a filter. -/
theorem getElem?_parameters (before after : List String) (filter : Filter) :
    (before ++ filter.parameters ++ after)[before.length]? = some filter.parameter := by
  rw [parameters_eq_cons, List.append_assoc, List.getElem?_append_right (Nat.le_refl _)]
  simp

/-- A compiled expression is read like its filter, if the parameters of the filter stand in the list
of parameters from the slot of the root on. -/
theorem readInto_of_compileFrom {strict : Bool} {filter : Filter} {slot next : Nat} {expr : Expr}
    (hcompile : compileFrom strict filter slot = .ok (expr, next)) (before after : List String)
    (hslot : before.length = slot) (level : Level) :
    expr.readInto (Condition.holds record (before ++ filter.parameters ++ after)) level =
      filter.readInto record level := by
  refine (compileFrom_ok_induction
    (P := fun filter slot expr => ∀ before after level, before.length = slot →
      expr.readInto (Condition.holds record (before ++ filter.parameters ++ after)) level =
        filter.readInto record level)
    (Q := fun filters slot exprs => ∀ connective before after level, before.length = slot →
      Expr.readAllInto
          (Condition.holds record (before ++ filters.flatMap parameters ++ after)) connective exprs
          level =
        readAllInto record connective filters level)
    ?leaf ?group ?nil ?cons hcompile).1 before after level hslot
  case leaf =>
    intro filter slot condition hchildren hown before after level hslot
    have hat := getElem?_parameters before after filter
    rw [hslot] at hat
    rw [readInto_of_children_eq_nil hchildren, Expr.readInto, map_holds_of_ownCondition hown hat]
  case group =>
    intro filter slot condition connective exprs hchildren hown hconnective ih before after level
      hslot
    have hat := getElem?_parameters before after filter
    rw [hslot] at hat
    -- The parameters of the children stand behind that of the node.
    have hparameters : before ++ filter.parameters ++ after =
        (before ++ [filter.parameter]) ++ filter.children.flatMap parameters ++ after := by
      rw [parameters_eq_cons, List.append_assoc, List.append_assoc, List.append_assoc]
      rfl
    rw [readInto_of_children_ne_nil hchildren hconnective, Expr.readInto,
      map_holds_of_ownCondition hown hat, hparameters, ih _ _ _ _ (by simp [hslot])]
  case nil => intro slot connective before after level _; rfl
  case cons =>
    intro filter filters slot expr exprs ihfirst ihrest connective before after level hslot
    have hfirst :=
      ihfirst before (filters.flatMap parameters ++ after) (level.join connective) hslot
    have hrest := ihrest connective (before ++ filter.parameters) after
      (filter.readInto record (level.join connective)) (by simp [hslot])
    rw [readAllInto, ← hrest, ← hfirst, Expr.readAllInto]
    simp only [List.flatMap_cons, List.append_assoc]

/-- The expression of a predicate means with its parameters what its filter means. -/
theorem value_eq_meaning {limits : Limits} {filter : Filter} {predicate : Predicate}
    (hcompile : filter.compile limits = .ok predicate) (record : Record) :
    predicate.expr.value (Condition.holds record predicate.parameters) = filter.meaning record := by
  obtain ⟨_, next, hroot, hparameters⟩ := compile_eq_ok hcompile
  have hread : predicate.expr.readInto (Condition.holds record ([] ++ filter.parameters ++ [])) {} =
      filter.readInto record {} := readInto_of_compileFrom hroot [] [] rfl {}
  rw [List.nil_append, List.append_nil] at hread
  rw [Expr.value, hparameters, hread, meaning]

/-- A predicate accepts the records of which its filter is true. A filter without a condition is
true of every record. -/
theorem accepts_eq_meaning {limits : Limits} {filter : Filter} {predicate : Predicate}
    (hcompile : filter.compile limits = .ok predicate) (record : Record) :
    predicate.accepts record = (filter.meaning record).getD true := by
  rw [Predicate.accepts, value_eq_meaning hcompile]

end RecordQuery.Filter
