import Mathlib.Algebra.GroupWithZero.Nat
import Mathlib.Algebra.Order.BigOperators.Group.List
import Mathlib.Algebra.Order.Group.Nat
import Mathlib.Data.List.Basic
import RecordQuery.Filter
import RecordQuery.Predicate.Expr

/-!
# Nodes of filters and expressions

Induction over filters and over expressions, and their nodes in pre-order. Operations on several
filters, or on several expressions, are those of lists.
-/

namespace RecordQuery

/-- Induction along a list whose items all have a property. The children of a node are such a list
where a property of the node is proved by induction. -/
theorem forall_mem_induction {α : Type} {p : α → Prop} {Q : List α → Prop} (nil : Q [])
    (cons : ∀ a items, p a → Q items → Q (a :: items)) {items : List α}
    (hitems : ∀ a ∈ items, p a) : Q items := by
  induction items with
  | nil => exact nil
  | cons a items ih =>
    obtain ⟨ha, hrest⟩ := List.forall_mem_cons.mp hitems
    exact cons a items ha (ih hrest)

namespace Filter

/-- Induction on filters: a property holds of every filter if it passes from the children of a node
to the node. -/
@[elab_as_elim] theorem induction {P : Filter → Prop}
    (node : ∀ filter : Filter, (∀ child ∈ filter.children, P child) → P filter)
    (filter : Filter) : P filter :=
  @Filter.rec P (fun filters => ∀ child ∈ filters, P child)
    (fun _ _ _ _ _ ih => node _ ih)
    (fun _ hchild => absurd hchild List.not_mem_nil)
    (fun _ _ hhead htail _ hchild => by
      rcases List.mem_cons.mp hchild with rfl | hchild
      · exact hhead
      · exact htail _ hchild)
    filter

@[simp] theorem flattenAll_eq_flatMap (filters : List Filter) :
    flattenAll filters = filters.flatMap flatten := by
  induction filters with
  | nil => rfl
  | cons filter filters ih => rw [flattenAll, ih, List.flatMap_cons]

@[simp] theorem countAll_eq_sum (filters : List Filter) :
    countAll filters = (filters.map count).sum := by
  induction filters with
  | nil => rfl
  | cons filter filters ih => rw [countAll, ih, List.map_cons, List.sum_cons]

@[simp] theorem depthAll_eq_foldr (filters : List Filter) :
    depthAll filters = (filters.map depth).foldr max 0 := by
  induction filters with
  | nil => rfl
  | cons filter filters ih => rw [depthAll, ih, List.map_cons, List.foldr_cons]

/-- A node stands before everything below it. -/
theorem flatten_eq_cons (filter : Filter) :
    filter.flatten = filter :: filter.children.flatMap flatten := by
  obtain ⟨field, operator, value, connective, children⟩ := filter
  rw [flatten, flattenAll_eq_flatMap]

/-- What is so of all nodes is so of the root, and of all nodes below every child. -/
theorem forall_mem_flatten {P : Filter → Prop} {filter : Filter} :
    (∀ node ∈ filter.flatten, P node) ↔
      P filter ∧ ∀ child ∈ filter.children, ∀ node ∈ child.flatten, P node := by
  rw [flatten_eq_cons, List.forall_mem_cons]
  refine and_congr_right fun _ => ?_
  constructor
  · exact fun hnodes child hchild node hnode =>
      hnodes node (List.mem_flatMap.mpr ⟨child, hchild, hnode⟩)
  · intro hchildren node hnode
    obtain ⟨child, hchild, hnode⟩ := List.mem_flatMap.mp hnode
    exact hchildren child hchild node hnode

/-- A node counts one more than everything below it. -/
theorem count_eq_sum (filter : Filter) :
    filter.count = (filter.children.map count).sum + 1 := by
  obtain ⟨field, operator, value, connective, children⟩ := filter
  rw [count, countAll_eq_sum]

/-- A node counts more than any of its children. -/
theorem count_lt_of_mem {filter child : Filter} (hchild : child ∈ filter.children) :
    child.count < filter.count := by
  have hle : child.count ≤ (filter.children.map count).sum :=
    List.le_sum_of_mem (List.mem_map_of_mem hchild)
  rw [count_eq_sum filter]
  omega

/-- A node is one level above the deepest of its children. -/
theorem depth_eq_foldr (filter : Filter) :
    filter.depth = (filter.children.map depth).foldr max 0 + 1 := by
  obtain ⟨field, operator, value, connective, children⟩ := filter
  rw [depth, depthAll_eq_foldr]

/-- A filter has no more levels than one more than its children have at most. -/
theorem depth_le_add_one_iff {filter : Filter} {levels : Nat} :
    filter.depth ≤ levels + 1 ↔ ∀ child ∈ filter.children, child.depth ≤ levels := by
  have hmax : ∀ depths : List Nat,
      depths.foldr max 0 ≤ levels ↔ ∀ depth ∈ depths, depth ≤ levels := by
    intro depths
    induction depths with
    | nil => simp
    | cons depth depths ih => rw [List.foldr_cons, Nat.max_le, ih, List.forall_mem_cons]
  rw [depth_eq_foldr, Nat.add_le_add_iff_right, hmax, List.forall_mem_map]

/-- Pre-order lists every node once. -/
@[simp] theorem length_flatten (filter : Filter) : filter.flatten.length = filter.count := by
  induction filter using Filter.induction with
  | node filter ih =>
    rw [flatten_eq_cons, count_eq_sum, List.length_cons, List.length_flatMap]
    congr 2
    exact List.map_congr_left ih

/-- The parameter of a node stands before those of everything below it. -/
theorem parameters_eq_cons (filter : Filter) :
    filter.parameters = filter.parameter :: filter.children.flatMap parameters := by
  rw [parameters, flatten_eq_cons, List.map_cons, List.map_flatMap]
  rfl

/-- Every node has a parameter. -/
@[simp] theorem length_parameters (filter : Filter) :
    filter.parameters.length = filter.count := by
  rw [parameters, List.length_map, length_flatten]

end Filter

namespace Expr

/-- Induction on expressions: a property holds of every expression if it holds of leaves and passes
from the children of a group to the group. -/
@[elab_as_elim] theorem induction {P : Expr → Prop} (leaf : ∀ condition, P (.leaf condition))
    (group : ∀ condition connective children, (∀ child ∈ children, P child) →
      P (.group condition connective children))
    (expr : Expr) : P expr :=
  @Expr.rec P (fun exprs => ∀ child ∈ exprs, P child) leaf group
    (fun _ hchild => absurd hchild List.not_mem_nil)
    (fun _ _ hhead htail _ hchild => by
      rcases List.mem_cons.mp hchild with rfl | hchild
      · exact hhead
      · exact htail _ hchild)
    expr

@[simp] theorem renderAll_eq_map (exprs : List Expr) : renderAll exprs = exprs.map render := by
  induction exprs with
  | nil => rfl
  | cons expr exprs ih => rw [renderAll, ih, List.map_cons]

@[simp] theorem outlineAll_eq_flatMap (level : Nat) (exprs : List Expr) :
    outlineAll level exprs = exprs.flatMap (outline level) := by
  induction exprs with
  | nil => rfl
  | cons expr exprs ih => rw [outlineAll, ih, List.flatMap_cons]

/-- The nodes of an expression in pre-order. -/
def nodes (expr : Expr) : List Expr :=
  (expr.outline 0).map (·.2)

/-- Which nodes there are does not depend on the level of the root. -/
theorem outline_map_snd (expr : Expr) (level : Nat) :
    (expr.outline level).map (·.2) = expr.nodes := by
  induction expr using Expr.induction generalizing level with
  | leaf condition => rfl
  | group condition connective children ih =>
    simp only [nodes, outline, outlineAll_eq_flatMap, List.map_cons, List.map_flatMap]
    congr 1
    exact List.flatMap_congr fun child hchild => by rw [ih child hchild, ih child hchild]

@[simp] theorem nodes_leaf (condition : Option Condition) :
    nodes (.leaf condition) = [.leaf condition] := rfl

@[simp] theorem nodes_group (condition : Option Condition) (connective : Connective)
    (children : List Expr) :
    nodes (.group condition connective children) =
      .group condition connective children :: children.flatMap nodes := by
  simp only [nodes, outline, outlineAll_eq_flatMap, List.map_cons, List.map_flatMap]
  congr 1
  exact List.flatMap_congr fun child _ => outline_map_snd child _

end Expr

end RecordQuery
