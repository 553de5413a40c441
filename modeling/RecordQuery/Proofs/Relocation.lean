import RecordQuery.Proofs.Slots

/-!
# Filters at another place

The compiler numbers the nodes of a filter while it goes down, so the expression of a subtree depends
on where the subtree stands. It depends on this in its slots only: from any slot a filter fails for
the same reason as from slot zero, or is compiled to the same expression with every slot moved by the
same distance. This is what makes the slots of a node, of a group around it and of its equal siblings
fit together.
-/

namespace RecordQuery

/-- A condition that refers to the parameter behind its own one by a distance. -/
def Condition.shift (distance : Nat) : Condition → Condition
  | compare field op slot => .compare field op (slot + distance)
  | nullTest field negated => .nullTest field negated
  | method field op slot => .method field op (slot + distance)

namespace Expr

mutual

/-- An expression of which every condition refers to the parameter behind its own one by a distance.
-/
def shift (distance : Nat) : Expr → Expr
  | leaf condition => .leaf (condition.map (Condition.shift distance))
  | group condition connective children =>
    .group (condition.map (Condition.shift distance)) connective (shiftAll distance children)

/-- Several expressions, all moved by the same distance. -/
def shiftAll (distance : Nat) : List Expr → List Expr
  | [] => []
  | expr :: exprs => shift distance expr :: shiftAll distance exprs

end

@[simp] theorem shiftAll_eq_map (distance : Nat) (exprs : List Expr) :
    shiftAll distance exprs = exprs.map (shift distance) := by
  induction exprs with
  | nil => rfl
  | cons expr exprs ih => rw [shiftAll, ih, List.map_cons]

/-- The nodes of a moved expression are the moved nodes. -/
theorem nodes_shift (distance : Nat) (expr : Expr) :
    (expr.shift distance).nodes = expr.nodes.map (shift distance) := by
  induction expr using Expr.induction with
  | leaf condition => rfl
  | group condition connective children ih =>
    rw [shift, shiftAll_eq_map, nodes_group, nodes_group, List.map_cons, List.flatMap_map,
      List.map_flatMap, List.flatMap_congr ih, shift, shiftAll_eq_map]

/-- A moved node refers to the slot behind its own one by the distance. -/
theorem ownSlot?_shift (distance : Nat) (expr : Expr) :
    (expr.shift distance).ownSlot? = expr.ownSlot?.map (· + distance) := by
  have hslot : ∀ condition : Option Condition,
      (condition.map (Condition.shift distance)).bind Condition.slot? =
        (condition.bind Condition.slot?).map (· + distance) := by
    rintro (_ | _ | _ | _) <;> rfl
  cases expr with
  | leaf condition => exact hslot condition
  | group condition connective children => exact hslot condition

/-- The slots of a moved expression are those of the expression, all moved by the distance. -/
theorem slots_shift (distance : Nat) (expr : Expr) :
    (expr.shift distance).slots = expr.slots.map (· + distance) := by
  rw [slots, nodes_shift, List.filterMap_map, slots, List.map_filterMap]
  exact List.filterMap_congr fun node _ => ownSlot?_shift distance node

end Expr

namespace Filter

variable {strict : Bool}

/-- An operator forms the same condition in another slot, but for this slot. -/
theorem formCondition_add (filter : Filter) (op : Operator) (slot distance : Nat) :
    filter.formCondition op (slot + distance) =
      (filter.formCondition op slot).map (Condition.shift distance) := by
  unfold formCondition
  cases op.kind <;> cases filter.hasValue <;> rfl

/-- A node has the same condition in another slot, but for this slot, or fails to have one for the
same reason. -/
theorem ownCondition_add (filter : Filter) (slot distance : Nat) :
    ownCondition strict filter (slot + distance) =
      (ownCondition strict filter slot).map (Option.map (Condition.shift distance)) := by
  unfold ownCondition
  split
  · rfl
  · cases readOperator strict filter with
    | error fault => rfl
    | ok op => exact congrArg Except.ok (formCondition_add filter op slot distance)

/-- Several filters are compiled alike from another slot, if each of them is. -/
theorem compileAllFrom_add {filters : List Filter} {distance : Nat}
    (hfilters : ∀ filter ∈ filters, ∀ slot, compileFrom strict filter (slot + distance) =
      (compileFrom strict filter slot).map fun (expr, next) =>
        (expr.shift distance, next + distance)) (slot : Nat) :
    compileAllFrom strict filters (slot + distance) =
      (compileAllFrom strict filters slot).map fun (exprs, next) =>
        (exprs.map (Expr.shift distance), next + distance) := by
  induction filters generalizing slot with
  | nil => rfl
  | cons filter filters ih =>
    obtain ⟨hfilter, hothers⟩ := List.forall_mem_cons.mp hfilters
    rw [compileAllFrom, compileAllFrom, hfilter]
    cases compileFrom strict filter slot with
    | error fault => rfl
    | ok first =>
      obtain ⟨expr, next⟩ := first
      have hrest := ih hothers next
      simp only [Except.map, bind, Except.bind] at hrest ⊢
      rw [hrest]
      cases compileAllFrom strict filters next <;> rfl

/-- From another slot a filter is compiled to the same expression, moved by the distance of the two
slots, or fails for the same reason. -/
theorem compileFrom_add (filter : Filter) (slot distance : Nat) :
    compileFrom strict filter (slot + distance) =
      (compileFrom strict filter slot).map fun (expr, next) =>
        (expr.shift distance, next + distance) := by
  induction filter using Filter.induction generalizing slot with
  | node filter ih =>
    by_cases hchildren : filter.children = []
    · rw [compileFrom_of_children_eq_nil hchildren, compileFrom_of_children_eq_nil hchildren,
        ownCondition_add]
      cases ownCondition strict filter slot with
      | error fault => rfl
      | ok condition =>
        simp only [Except.map, Expr.shift]
        rw [Nat.add_right_comm]
    · have hall := compileAllFrom_add ih (slot + 1)
      rw [Nat.add_right_comm] at hall
      rw [compileFrom_of_children_ne_nil hchildren, compileFrom_of_children_ne_nil hchildren,
        ownCondition_add, hall]
      cases ownCondition strict filter slot with
      | error fault => rfl
      | ok condition =>
        cases readConnective filter with
        | error fault => rfl
        | ok connective =>
          cases compileAllFrom strict filter.children (slot + 1) with
          | error fault => rfl
          | ok rest =>
            simp only [Except.map, bind, Except.bind, pure, Except.pure, Expr.shift,
              Expr.shiftAll_eq_map]

/-- From any slot a filter is rejected exactly if it is from slot zero, and with the same fault. It
is compiled exactly if it is from slot zero, to the same expression with every slot increased by the
one from which it starts, and as many slots are taken as the filter has nodes. These are the node
itself and then the nodes of its children, child by child. -/
theorem compileFrom_relocates (filter : Filter) (slot : Nat) :
    (∀ fault, compileFrom strict filter slot = .error fault ↔
      compileFrom strict filter 0 = .error fault) ∧
    (∀ expr next, compileFrom strict filter slot = .ok (expr, next) ↔ ∃ base,
      compileFrom strict filter 0 = .ok (base, filter.count) ∧ expr = base.shift slot ∧
        expr.slots = base.slots.map (· + slot) ∧ next = slot + filter.count) ∧
    filter.flatten = filter :: filter.children.flatMap flatten ∧
    filter.flatten.length = filter.count := by
  have hadd : compileFrom strict filter (0 + slot) = _ := compileFrom_add filter 0 slot
  rw [Nat.zero_add] at hadd
  refine ⟨fun fault => ?_, fun expr next => ?_, flatten_eq_cons filter, length_flatten filter⟩
  · rw [hadd]
    cases compileFrom strict filter 0 <;> simp [Except.map]
  · rw [hadd, map_eq_ok_iff]
    constructor
    · rintro ⟨⟨base, last⟩, hbase, heq⟩
      obtain ⟨rfl, rfl⟩ := Prod.mk.inj heq
      obtain rfl := compileFrom_next hbase
      rw [Nat.zero_add] at hbase
      exact ⟨base, hbase, rfl, base.slots_shift slot, by omega⟩
    · rintro ⟨base, hbase, rfl, _, rfl⟩
      exact ⟨_, hbase, by rw [Nat.add_comm]⟩

/-- Two equal children are compiled to expressions that are as far apart as the children are. -/
example :
    let child := leaf "a" "eq" |>.withValue "1" |>.withConnective "and" |>.withChild
      (leaf "b" "isnull")
    ∃ base, compileFrom true child 1 = .ok (base, 3) ∧
      compileFrom true (group "or" [child, child]) 0 =
        .ok (.group none .or [base, base.shift 2], 5) :=
  ⟨_, rfl, rfl⟩

end Filter

end RecordQuery
