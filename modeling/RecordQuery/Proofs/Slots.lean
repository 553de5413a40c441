import Mathlib.Data.List.Forall2
import RecordQuery.Proofs.Compilation

/-!
# Slots

The slot of a condition is the number of its node in pre-order, and so the number of its parameter.
The compiler counts slots while it goes down the filter, apart from the list of parameters. Both
stay in step: an expression mirrors its filter node by node, every condition refers to the parameter
of its own node, and no two conditions share one.
-/

namespace RecordQuery

/-- The slot to which a condition refers, if it needs a parameter. -/
def Condition.slot? : Condition → Option Nat
  | compare _ _ slot | method _ _ slot => some slot
  | nullTest _ _ => none

/-- The slot to which the condition of a node itself refers. -/
def Expr.ownSlot? (expr : Expr) : Option Nat :=
  expr.condition.bind Condition.slot?

/-- The slots to which an expression refers, from left to right. -/
def Expr.slots (expr : Expr) : List Nat :=
  expr.nodes.filterMap Expr.ownSlot?

namespace Filter

/-- An expression has the shape of a filter: the same number of children at every node, and a group
with the node's connective exactly where there are children. -/
inductive Mirrors : Filter → Expr → Prop
  | leaf {filter : Filter} {condition : Option Condition} :
    filter.children = [] → Mirrors filter (.leaf condition)
  | group {filter : Filter} {condition : Option Condition} {connective : Connective}
    {exprs : List Expr} :
    filter.children ≠ [] → filter.connective = some connective.token →
    List.Forall₂ Mirrors filter.children exprs →
    Mirrors filter (.group condition connective exprs)

/-- The condition that a node with a given slot has of its own. -/
inductive Forms (filter : Filter) (slot : Nat) : Option Condition → Prop
  | nullTest {op : Operator} :
    Operator.ofToken filter.operator = .ok op → op.kind = .nullTest →
    Forms filter slot (some (.nullTest filter.field (op == .isNotNull)))
  | compare {op : Operator} :
    Operator.ofToken filter.operator = .ok op → op.kind = .comparison →
    filter.hasValue = true → Forms filter slot (some (.compare filter.field op slot))
  | method {op : Operator} :
    Operator.ofToken filter.operator = .ok op → op.kind = .method →
    filter.hasValue = true → Forms filter slot (some (.method filter.field op slot))
  | valueless {op : Operator} :
    Operator.ofToken filter.operator = .ok op → op.kind ≠ .nullTest →
    filter.hasValue = false → Forms filter slot none
  | grouping : filter.isGrouping = true → Forms filter slot none

variable {strict : Bool}

/-- The condition with which a node is compiled is the one that it has of its own. -/
theorem forms_of_ownCondition {filter : Filter} {slot : Nat} {condition : Option Condition}
    (hown : ownCondition strict filter slot = .ok condition) : Forms filter slot condition := by
  rcases ownCondition_eq_ok hown with ⟨hgrouping, rfl⟩ | ⟨op, hread, rfl⟩
  · exact .grouping hgrouping
  · obtain ⟨_, _, hop⟩ := readOperator_eq_ok hread
    unfold formCondition
    cases hkind : op.kind with
    | nullTest => exact .nullTest hop hkind
    | comparison =>
      cases hvalue : filter.hasValue with
      | true => exact .compare hop hkind hvalue
      | false => exact .valueless hop (by simp [hkind]) hvalue
    | method =>
      cases hvalue : filter.hasValue with
      | true => exact .method hop hkind hvalue
      | false => exact .valueless hop (by simp [hkind]) hvalue

/-- A node whose condition needs a parameter refers to its own slot. -/
theorem Forms.slot_eq {filter : Filter} {slot : Nat} {condition : Condition}
    (hforms : Forms filter slot (some condition)) {other : Nat}
    (hslot : condition.slot? = some other) : other = slot := by
  cases hforms with
  | nullTest => simp [Condition.slot?] at hslot
  | compare => exact (Option.some.inj hslot).symm
  | method => exact (Option.some.inj hslot).symm

/-- A node of an expression belongs to a node of a filter and its slot: it mirrors the node, and it
has the condition of this node in this slot. -/
def Belongs (node : Filter × Nat) (expr : Expr) : Prop :=
  Mirrors node.1 expr ∧ Forms node.1 node.2 expr.condition

/-- A compiled expression has the shape of its filter, and its nodes belong to the nodes of the
filter, which are numbered in pre-order from the slot of the root. -/
theorem belongs_of_compileFrom {filter : Filter} {slot next : Nat} {expr : Expr}
    (hcompile : compileFrom strict filter slot = .ok (expr, next)) :
    Mirrors filter expr ∧ List.Forall₂ Belongs (filter.flatten.zipIdx slot) expr.nodes := by
  refine (compileFrom_ok_induction
    (P := fun filter slot expr => Mirrors filter expr ∧
      List.Forall₂ Belongs (filter.flatten.zipIdx slot) expr.nodes)
    (Q := fun filters slot exprs => List.Forall₂ Mirrors filters exprs ∧
      List.Forall₂ Belongs ((filters.flatMap flatten).zipIdx slot) (exprs.flatMap Expr.nodes))
    ?leaf ?group ?nil ?cons hcompile).1
  case leaf =>
    intro filter slot condition hchildren hown
    refine ⟨.leaf hchildren, ?_⟩
    rw [flatten_eq_cons, hchildren]
    exact .cons ⟨.leaf hchildren, forms_of_ownCondition hown⟩ .nil
  case group =>
    intro filter slot condition connective exprs hchildren hown hconnective ⟨hmirrors, hbelongs⟩
    have hgroup : Mirrors filter (.group condition connective exprs) :=
      .group hchildren (readConnective_eq_ok_iff.mp hconnective) hmirrors
    refine ⟨hgroup, ?_⟩
    rw [flatten_eq_cons, List.zipIdx_cons, Expr.nodes_group]
    exact .cons ⟨hgroup, forms_of_ownCondition hown⟩ hbelongs
  case nil => intro slot; exact ⟨.nil, .nil⟩
  case cons =>
    intro filter filters slot expr exprs ⟨hmirrors, hbelongs⟩ ⟨hmirrorsAll, hbelongsAll⟩
    refine ⟨.cons hmirrors hmirrorsAll, ?_⟩
    rw [List.flatMap_cons, List.flatMap_cons, List.zipIdx_append, length_flatten]
    exact List.rel_append hbelongs hbelongsAll

/-- Nodes that belong to numbered nodes refer to some of these numbers, in their order. -/
theorem slots_sublist_range' {filters : List Filter} {exprs : List Expr} {slot : Nat}
    (hbelongs : List.Forall₂ Belongs (filters.zipIdx slot) exprs) :
    (exprs.filterMap Expr.ownSlot?).Sublist (List.range' slot exprs.length) := by
  induction exprs generalizing filters slot with
  | nil => exact List.Sublist.refl []
  | cons expr exprs ih =>
    cases filters with
    | nil => cases hbelongs
    | cons filter filters =>
      obtain ⟨⟨_, hforms⟩, htail⟩ := List.forall₂_cons.mp hbelongs
      have hrest := ih htail
      rw [List.length_cons, List.range'_succ]
      cases hslot : expr.ownSlot? with
      | none =>
        rw [List.filterMap_cons_none hslot]
        exact hrest.cons slot
      | some other =>
        obtain ⟨condition, hcondition, hother⟩ := Option.bind_eq_some_iff.mp hslot
        rw [hcondition] at hforms
        obtain rfl := hforms.slot_eq hother
        rw [List.filterMap_cons_some hslot]
        exact hrest.cons_cons other

/-- A filter against the predicate to which it is compiled. -/
structure Aligned (filter : Filter) (predicate : Predicate) : Prop where
  /-- Every node has a parameter. -/
  length_parameters : predicate.parameters.length = filter.count
  /-- Every node has a node of the expression. -/
  length_nodes : predicate.expr.nodes.length = filter.count
  /-- The two trees have the same shape. -/
  mirrors : Mirrors filter predicate.expr
  /-- The node of the expression at a place in pre-order belongs to the node of the filter at this
  place, and so does the parameter. -/
  node : ∀ (slot : Nat) (node : Filter), filter.flatten[slot]? = some node →
    ∃ expr, predicate.expr.nodes[slot]? = some expr ∧ Mirrors node expr ∧
      Forms node slot expr.condition ∧ predicate.parameters[slot]? = some node.parameter
  /-- Every condition finds its parameter. -/
  slots_lt : ∀ slot ∈ predicate.expr.slots, slot < predicate.parameters.length
  /-- No two conditions share a parameter. -/
  slots_nodup : predicate.expr.slots.Nodup

/-- A successful compilation aligns the predicate with the filter. -/
theorem aligned_of_compile {limits : Limits} {filter : Filter} {predicate : Predicate}
    (hcompile : filter.compile limits = .ok predicate) : Aligned filter predicate := by
  obtain ⟨_, next, hroot, hparameters⟩ := compile_eq_ok hcompile
  obtain ⟨hmirrors, hbelongs⟩ := belongs_of_compileFrom hroot
  have hlength : predicate.expr.nodes.length = filter.count := by
    rw [← hbelongs.length_eq, List.length_zipIdx, length_flatten]
  have hslots : predicate.expr.slots.Sublist (List.range' 0 filter.count) := by
    rw [← hlength]
    exact slots_sublist_range' hbelongs
  refine ⟨by rw [hparameters, length_parameters], hlength, hmirrors, ?_, ?_, ?_⟩
  · intro slot node hnode
    obtain ⟨hlt, rfl⟩ := List.getElem?_eq_some_iff.mp hnode
    have hlt' : slot < predicate.expr.nodes.length := by rwa [hlength, ← length_flatten]
    have hat := hbelongs.get (by simpa using hlt) hlt'
    simp only [List.get_eq_getElem, List.getElem_zipIdx, Nat.zero_add] at hat
    refine ⟨_, List.getElem?_eq_getElem hlt', hat.1, hat.2, ?_⟩
    rw [hparameters, parameters, List.getElem?_map, hnode, Option.map_some]
  · intro slot hslot
    rw [hparameters, length_parameters]
    have hmem := hslots.subset hslot
    simpa using hmem
  · exact hslots.nodup List.nodup_range'

end Filter

end RecordQuery
