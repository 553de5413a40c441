import RecordQuery.Proofs.Combining
import RecordQuery.Proofs.EmptyChildren
import RecordQuery.Proofs.Sentence.Predicates

/-!
# Expressions that mean their structure

Read by its structure, an expression combines the children of each group by the connective of the
group, and what they come to with the condition of the node by the same connective. Its text puts no
parentheses around a child that is a group itself, so an `or` of such a child takes apart the
siblings under `and`. Where no `or` group has siblings under `and`, the text means the structure,
and it would mean the same with every child group in parentheses.
-/

namespace RecordQuery

namespace Expr

mutual

/-- What an expression means by its structure, for given truths of its conditions. -/
def structural (truth : Condition → Bool) : Expr → Option Bool
  | leaf condition => condition.map truth
  | group condition connective children =>
    connective.combine
      [condition.map truth, connective.combine (structuralAll truth children)]

/-- What each of several expressions means by its structure. -/
def structuralAll (truth : Condition → Bool) : List Expr → List (Option Bool)
  | [] => []
  | expr :: exprs => structural truth expr :: structuralAll truth exprs

end

/-- Whether a node has an `or` group and something else under `and`. -/
def mixes : Expr → Bool
  | group _ .and children => 2 ≤ children.length && children.any isOrGroup
  | _ => false

/-- No `or` group is one of two or more children of an `and` group. -/
def Unmixed (expr : Expr) : Prop :=
  ∀ node ∈ expr.nodes, node.mixes = false

instance (expr : Expr) : Decidable expr.Unmixed :=
  inferInstanceAs (Decidable (∀ node ∈ expr.nodes, _))

variable {truth : Condition → Bool} {condition : Option Condition} {connective : Connective}
  {expr : Expr} {children : List Expr}

@[simp] theorem structuralAll_eq_map (exprs : List Expr) :
    structuralAll truth exprs = exprs.map (structural truth) := by
  induction exprs with
  | nil => rfl
  | cons expr exprs ih => rw [structuralAll, ih, List.map_cons]

theorem unmixed_group_iff : (group condition connective children).Unmixed ↔
    mixes (group condition connective children) = false ∧ ∀ child ∈ children, child.Unmixed := by
  rw [Unmixed, nodes_group, List.forall_mem_cons]
  simp only [List.forall_mem_flatMap]
  rfl

/-! ## Reading one node -/

/-- A group has the value of its condition and its children under its connective. -/
theorem value_group : (group condition connective children).value truth =
    connective.pair (condition.map truth) (readAllInto truth connective children {}).value :=
  Level.value_push_join_push _ _

/-- An expression that is no `or` group is read as one operand everywhere. -/
theorem readInto_of_isOrGroup_eq_false (hor : expr.isOrGroup = false) (level : Level) :
    readInto truth expr level = level.push (expr.value truth) := by
  cases expr with
  | leaf condition => rfl
  | group condition connective children =>
    cases connective with
    | or => cases hor
    | and =>
      rw [readInto, Level.join, Level.push_push, value_group]
      rfl

/-! ## Reading the children of a node -/

/-- A child without siblings has its own value. -/
theorem value_readAllInto_singleton (child : Expr) :
    (readAllInto truth connective [child] {}).value = child.value truth := by
  cases connective <;> rfl

/-- The children of a node that does not mix come to what they mean one by one. -/
theorem value_readAllInto_of_mixes_eq_false
    (hmixes : mixes (group condition connective children) = false) :
    (readAllInto truth connective children {}).value =
      connective.combine (children.map (value truth)) := by
  cases connective with
  | or => exact (reads truth).value_or children {}
  | and =>
    match children with
    | [] => rfl
    | [child] =>
      rw [value_readAllInto_singleton, List.map_singleton, Connective.combine_singleton]
    | first :: second :: rest =>
      have hors : ∀ child ∈ first :: second :: rest, child.isOrGroup = false := by
        simpa [mixes] using hmixes
      exact congrArg Level.value ((reads truth).push_and
        (fun child hchild => readInto_of_isOrGroup_eq_false (hors child hchild)) {})

/-- Where no node mixes, an expression means its structure. -/
theorem value_eq_structural (hunmixed : expr.Unmixed) :
    expr.value truth = expr.structural truth := by
  induction expr using Expr.induction with
  | leaf condition => rfl
  | group condition connective children ih =>
    obtain ⟨hmixes, hchildren⟩ := unmixed_group_iff.mp hunmixed
    have hmeaning : children.map (value truth) = children.map (structural truth) :=
      List.map_congr_left fun child hchild => ih child hchild (hchildren child hchild)
    rw [value_group, value_readAllInto_of_mixes_eq_false hmixes, hmeaning, structural,
      structuralAll_eq_map, Connective.combine_pair]

end Expr

/-! ## With parentheses -/

/-- A level with the same connective between any two of its operands. -/
def Sentence.ofOperands (connective : Connective) : List Operand → Sentence
  | [] => .last .blank
  | [operand] => .last operand
  | operand :: next :: operands =>
    .join operand connective (ofOperands connective (next :: operands))

/-- A child as an operand of its level: a group stands in parentheses. -/
def Operand.ofChild (child : Expr) (sentence : Sentence) : Operand :=
  match child with
  | .leaf condition => .own condition
  | .group _ _ _ => .level sentence

namespace Expr

mutual

/-- The sentence of an expression with every child group in parentheses. -/
def fenced : Expr → Sentence
  | leaf condition => .last (.own condition)
  | group condition connective children =>
    .join (.own condition) connective (.last (.level (.ofOperands connective (fencedAll children))))

/-- Several children as the operands of a level. -/
def fencedAll : List Expr → List Operand
  | [] => []
  | expr :: exprs => .ofChild expr (fenced expr) :: fencedAll exprs

end

end Expr

namespace Sentence

variable {truth : Condition → Bool} {connective : Connective}

/-- A level with one operand means this operand. -/
theorem value_last (operand : Operand) : (last operand).value truth = operand.value truth := by
  rw [value_eq_readInto]
  rfl

/-- Operands with `or` between them, behind another `or`, are read as what they come to. -/
theorem value_readInto_ofOperands_or (operands : List Operand) (level : Level) :
    ((ofOperands .or operands).readInto truth (level.join .or)).value =
      eitherOf level.value (Connective.or.combine (operands.map (Operand.value truth))) := by
  match operands with
  | [] => rw [ofOperands, readInto, Operand.value]; simp
  | [operand] =>
    rw [ofOperands, readInto, Level.value_push_join_or, List.map_singleton,
      Connective.combine_singleton]
  | operand :: next :: operands =>
    have hrest := value_readInto_ofOperands_or (next :: operands)
      ((level.join .or).push (operand.value truth))
    rw [Level.value_push_join_or, eitherOf_assoc] at hrest
    rw [List.map_cons, Connective.combine_cons]
    exact hrest

/-- Operands with `and` between them are read as what they come to. -/
theorem readInto_ofOperands_and (operands : List Operand) (level : Level) :
    (ofOperands .and operands).readInto truth level =
      level.push (Connective.and.combine (operands.map (Operand.value truth))) := by
  match operands with
  | [] => rfl
  | [operand] =>
    rw [ofOperands, readInto, List.map_singleton, Connective.combine_singleton]
  | operand :: next :: operands =>
    have hrest := readInto_ofOperands_and (next :: operands) (level.push (operand.value truth))
    rw [Level.push_push] at hrest
    rw [List.map_cons, Connective.combine_cons]
    exact hrest

/-- A level means what its operands come to under its connective. -/
theorem value_ofOperands (operands : List Operand) :
    (ofOperands connective operands).value truth =
      connective.combine (operands.map (Operand.value truth)) := by
  rw [value_eq_readInto]
  cases connective with
  | and =>
    rw [readInto_ofOperands_and]
    rfl
  | or => exact value_readInto_ofOperands_or operands {}

end Sentence

namespace Expr

variable {truth : Condition → Bool} {expr : Expr}

@[simp] theorem fencedAll_eq_map (exprs : List Expr) :
    fencedAll exprs = exprs.map fun expr => .ofChild expr expr.fenced := by
  induction exprs with
  | nil => rfl
  | cons expr exprs ih => rw [fencedAll, ih, List.map_cons]

/-- With every child group in parentheses, every expression means its structure. -/
theorem value_fenced (expr : Expr) : expr.fenced.value truth = expr.structural truth := by
  induction expr using Expr.induction with
  | leaf condition =>
    rw [fenced, structural, Sentence.value_last, value_own]
  | group condition connective children ih =>
    have hchildren : (fencedAll children).map (Operand.value truth) =
        children.map (structural truth) := by
      rw [fencedAll_eq_map, List.map_map]
      refine List.map_congr_left fun child hchild => ?_
      rw [← ih child hchild, Function.comp_apply]
      cases child with
      | leaf condition => exact (Sentence.value_last (.own condition)).symm
      | group condition connective children => rfl
    have hinner : (Operand.level (.ofOperands connective (fencedAll children))).value truth =
        connective.combine (children.map (structural truth)) := by
      rw [← hchildren, ← Sentence.value_ofOperands]
      rfl
    rw [fenced, Sentence.value_eq_readInto, Sentence.readInto, Sentence.readInto,
      Level.value_push_join_push, value_own, hinner, structural, structuralAll_eq_map,
      Connective.combine_pair]

/-- Where no `or` group has siblings under `and`, a record matches exactly if the structure of the
expression is true of it, or if there is no condition in it. The text would mean the same with every
child group in parentheses. -/
theorem accepts_eq_structural (hunmixed : expr.Unmixed) (parameters : List String)
    (record : Record) :
    Predicate.accepts ⟨expr, parameters⟩ record =
        (expr.structural (Condition.holds record parameters)).getD true ∧
      expr.sentence.accepts parameters record = expr.fenced.accepts parameters record := by
  have hvalue : expr.value (Condition.holds record parameters) = expr.structural _ :=
    value_eq_structural hunmixed
  constructor
  · rw [Predicate.accepts, hvalue]
  · rw [Sentence.accepts, Sentence.accepts, ← value_eq, hvalue, value_fenced]

/-- An `or` group with a condition of its own is an only child under `and`, and an `and` group
without children has a sibling under `or`. -/
theorem accepts_eq_structural_only_child :
    let expr := group none .or [
      group (some (.nullTest "a" false)) .and [
        group (some (.compare "b" .equal 2)) .or [
          leaf none, leaf (some (.method "c" .contains 4))]],
      group none .and []]
    expr.Unmixed ∧ ∀ parameters record,
      Predicate.accepts ⟨expr, parameters⟩ record =
          (expr.structural (Condition.holds record parameters)).getD true ∧
        expr.sentence.accepts parameters record = expr.fenced.accepts parameters record := by
  intro expr
  have hunmixed : expr.Unmixed := by decide
  exact ⟨hunmixed, accepts_eq_structural hunmixed⟩

/-- The children of an `or` group hold without its sibling under `and`, which stays in one clause
with the condition of the group. -/
example :
    let truth : Condition → Bool := fun condition => condition == .nullTest "c" false
    let expr := group none .and [leaf (some (.nullTest "a" false)),
      group (some (.nullTest "b" false)) .or [leaf (some (.nullTest "c" false))]]
    ¬ expr.Unmixed ∧ expr.value truth = some true ∧ expr.structural truth = some false := by
  decide

end Expr

end RecordQuery
