import RecordQuery.Predicate.Compile
import RecordQuery.Proofs.Nodes
import RecordQuery.Proofs.Outcome

/-!
# Successful compilations

What a compilation that succeeds has done, node by node. Every law about compiled filters is an
induction along these steps, so the induction is stated once, as `compileFrom_ok_induction`.
-/

namespace RecordQuery.Filter

variable {strict : Bool}

/-- A node without a field has no operator. -/
theorem readOperator_of_field_eq {filter : Filter} (hfield : filter.field = "") :
    readOperator strict filter = .error (.field "") := by
  unfold readOperator
  rw [if_pos hfield]
  rfl

/-- Unless paths are strict, a field only has to be there. -/
theorem readOperator_false {filter : Filter} (hfield : filter.field ≠ "") :
    readOperator false filter = Operator.ofToken filter.operator := by
  simp [readOperator, hfield]

/-- Where paths are strict, the field is read before the operator. -/
theorem readOperator_true {filter : Filter} (hfield : filter.field ≠ "") :
    readOperator true filter =
      Path.parse filter.field >>= fun _ => Operator.ofToken filter.operator := by
  unfold readOperator
  rw [if_neg hfield]
  cases Path.parse filter.field with
  | error fault => rfl
  | ok path => rfl

/-- The operator of a node is known once its field has been looked at. Under strict paths the field
is a path. -/
theorem readOperator_eq_ok {filter : Filter} {op : Operator}
    (hread : readOperator strict filter = .ok op) :
    filter.field ≠ "" ∧ (strict = true → ∃ path, Path.parse filter.field = .ok path) ∧
      Operator.ofToken filter.operator = .ok op := by
  have hfield : filter.field ≠ "" := by
    intro hempty
    rw [readOperator_of_field_eq hempty] at hread
    cases hread
  refine ⟨hfield, ?_⟩
  cases strict with
  | false =>
    rw [readOperator_false hfield] at hread
    exact ⟨by simp, hread⟩
  | true =>
    rw [readOperator_true hfield] at hread
    obtain ⟨path, hpath, hop⟩ := bind_eq_ok_iff.mp hread
    exact ⟨fun _ => ⟨path, hpath⟩, hop⟩

/-- The condition of a node is none if the node only groups others, and else the one that its
operator forms. -/
theorem ownCondition_eq_ok {filter : Filter} {slot : Nat} {condition : Option Condition}
    (hown : ownCondition strict filter slot = .ok condition) :
    (filter.isGrouping = true ∧ condition = none) ∨
      ∃ op, readOperator strict filter = .ok op ∧ condition = filter.formCondition op slot := by
  unfold ownCondition at hown
  split at hown
  · next hgrouping => exact .inl ⟨hgrouping, (pure_eq_ok_iff.mp hown).symm⟩
  · obtain ⟨op, hop, rfl⟩ := map_eq_ok_iff.mp hown
    exact .inr ⟨op, hop, rfl⟩

/-- Whether the condition of a node can be read does not depend on the slot. -/
theorem exists_ownCondition {filter : Filter} {slot : Nat} {condition : Option Condition}
    (hown : ownCondition strict filter slot = .ok condition) (other : Nat) :
    ∃ condition, ownCondition strict filter other = .ok condition := by
  unfold ownCondition at hown ⊢
  split at hown
  · next hgrouping => exact ⟨none, if_pos hgrouping⟩
  · next hgrouping =>
    obtain ⟨op, hop, _⟩ := map_eq_ok_iff.mp hown
    rw [if_neg hgrouping]
    exact ⟨_, map_eq_ok_iff.mpr ⟨op, hop, rfl⟩⟩

/-- The connective of a node is the one that its token names. -/
theorem readConnective_eq_ok_iff {filter : Filter} {connective : Connective} :
    readConnective filter = .ok connective ↔ filter.connective = some connective.token := by
  unfold readConnective
  constructor
  · intro hread
    cases htoken : filter.connective with
    | none => simp [htoken] at hread
    | some token =>
      simp only [htoken, Connective.ofToken] at hread
      split at hread
      · next htext => cases hread; rw [htext]; rfl
      · split at hread
        · next htext => cases hread; rw [htext]; rfl
        · cases hread
  · intro htoken
    rw [htoken]
    cases connective <;> rfl

/-- A node without children is compiled to its condition, and takes one slot. -/
theorem compileFrom_of_children_eq_nil {filter : Filter} (hchildren : filter.children = [])
    (slot : Nat) :
    compileFrom strict filter slot =
      (ownCondition strict filter slot).map fun condition => (.leaf condition, slot + 1) := by
  obtain ⟨field, operator, value, connective, children⟩ := filter
  obtain rfl : children = [] := hchildren
  rw [compileFrom]
  cases ownCondition strict _ slot <;> rfl

/-- A node with children is compiled to its condition, its connective and its children, of which the
first takes the slot behind the node's own. -/
theorem compileFrom_of_children_ne_nil {filter : Filter} (hchildren : filter.children ≠ [])
    (slot : Nat) :
    compileFrom strict filter slot = (do
      let condition ← ownCondition strict filter slot
      let connective ← readConnective filter
      let (exprs, next) ← compileAllFrom strict filter.children (slot + 1)
      pure (.group condition connective exprs, next)) := by
  obtain ⟨field, operator, value, connective, _ | ⟨child, children⟩⟩ := filter
  · exact absurd rfl hchildren
  · rw [compileFrom]
    simp only [compileAllFrom, bind_assoc, pure_bind]

/-- What is known of a successful compilation of a node without children. -/
theorem compileFrom_leaf_eq_ok {filter : Filter} {slot next : Nat} {expr : Expr}
    (hchildren : filter.children = [])
    (hcompile : compileFrom strict filter slot = .ok (expr, next)) :
    ∃ condition, ownCondition strict filter slot = .ok condition ∧
      expr = .leaf condition ∧ next = slot + 1 := by
  rw [compileFrom_of_children_eq_nil hchildren, map_eq_ok_iff] at hcompile
  obtain ⟨condition, hcondition, heq⟩ := hcompile
  obtain ⟨rfl, rfl⟩ := Prod.mk.inj heq
  exact ⟨condition, hcondition, rfl, rfl⟩

/-- What is known of a successful compilation of a node with children. -/
theorem compileFrom_group_eq_ok {filter : Filter} {slot next : Nat} {expr : Expr}
    (hchildren : filter.children ≠ [])
    (hcompile : compileFrom strict filter slot = .ok (expr, next)) :
    ∃ condition connective exprs, ownCondition strict filter slot = .ok condition ∧
      readConnective filter = .ok connective ∧
      compileAllFrom strict filter.children (slot + 1) = .ok (exprs, next) ∧
      expr = .group condition connective exprs := by
  rw [compileFrom_of_children_ne_nil hchildren] at hcompile
  obtain ⟨condition, hcondition, hcompile⟩ := bind_eq_ok_iff.mp hcompile
  obtain ⟨connective, hconnective, hcompile⟩ := bind_eq_ok_iff.mp hcompile
  obtain ⟨⟨exprs, last⟩, hexprs, hcompile⟩ := bind_eq_ok_iff.mp hcompile
  obtain ⟨rfl, rfl⟩ := Prod.mk.inj (pure_eq_ok_iff.mp hcompile)
  exact ⟨condition, connective, exprs, hcondition, hconnective, hexprs, rfl⟩

/-- What is known of a successful compilation of several filters, one after the other. -/
theorem compileAllFrom_cons_eq_ok {filter : Filter} {filters : List Filter} {slot next : Nat}
    {exprs : List Expr}
    (hcompile : compileAllFrom strict (filter :: filters) slot = .ok (exprs, next)) :
    ∃ expr middle others, compileFrom strict filter slot = .ok (expr, middle) ∧
      compileAllFrom strict filters middle = .ok (others, next) ∧ exprs = expr :: others := by
  rw [compileAllFrom] at hcompile
  obtain ⟨⟨expr, middle⟩, hfirst, hcompile⟩ := bind_eq_ok_iff.mp hcompile
  obtain ⟨⟨others, last⟩, hothers, hcompile⟩ := bind_eq_ok_iff.mp hcompile
  obtain ⟨rfl, rfl⟩ := Prod.mk.inj (pure_eq_ok_iff.mp hcompile)
  exact ⟨expr, middle, others, hfirst, hothers, rfl⟩

section Induction

variable {P : Filter → Nat → Expr → Prop} {Q : List Filter → Nat → List Expr → Prop}

/-- Induction along successful compilations. `P filter slot expr` is shown of every filter that is
compiled from `slot` to `expr`, and `Q` likewise of several filters, which take as many slots as
they have nodes. -/
theorem compileFrom_ok_induction
    (leaf : ∀ filter slot condition, filter.children = [] →
      ownCondition strict filter slot = .ok condition → P filter slot (.leaf condition))
    (group : ∀ filter slot condition connective exprs, filter.children ≠ [] →
      ownCondition strict filter slot = .ok condition →
      readConnective filter = .ok connective →
      Q filter.children (slot + 1) exprs → P filter slot (.group condition connective exprs))
    (nil : ∀ slot, Q [] slot [])
    (cons : ∀ filter filters slot expr exprs, P filter slot expr →
      Q filters (slot + filter.count) exprs → Q (filter :: filters) slot (expr :: exprs))
    {filter : Filter} {slot next : Nat} {expr : Expr}
    (hcompile : compileFrom strict filter slot = .ok (expr, next)) :
    P filter slot expr ∧ next = slot + filter.count := by
  induction filter using Filter.induction generalizing slot next expr with
  | node filter ih =>
    by_cases hchildren : filter.children = []
    · obtain ⟨condition, hcondition, rfl, rfl⟩ := compileFrom_leaf_eq_ok hchildren hcompile
      refine ⟨leaf filter slot condition hchildren hcondition, ?_⟩
      rw [count_eq_sum, hchildren]
      rfl
    · obtain ⟨condition, connective, exprs, hcondition, hconnective, hexprs, rfl⟩ :=
        compileFrom_group_eq_ok hchildren hcompile
      -- The children are compiled one after the other, each from where the last one ended.
      have hall : ∀ slot exprs, compileAllFrom strict filter.children slot = .ok (exprs, next) →
          Q filter.children slot exprs ∧ next = slot + (filter.children.map count).sum := by
        refine forall_mem_induction (Q := fun filters => ∀ slot exprs,
          compileAllFrom strict filters slot = .ok (exprs, next) →
            Q filters slot exprs ∧ next = slot + (filters.map count).sum) ?_ ?_ ih
        · intro slot exprs hnil
          obtain ⟨rfl, rfl⟩ := Prod.mk.inj (pure_eq_ok_iff.mp hnil)
          exact ⟨nil slot, rfl⟩
        · intro child filters ihchild ihrest slot exprs hcons
          obtain ⟨expr, middle, others, hchild, hothers, rfl⟩ := compileAllFrom_cons_eq_ok hcons
          obtain ⟨hP, rfl⟩ := ihchild hchild
          obtain ⟨hQ, hnext⟩ := ihrest _ others hothers
          refine ⟨cons child filters slot expr others hP hQ, ?_⟩
          rw [hnext, List.map_cons, List.sum_cons]
          omega
      obtain ⟨hQ, hnext⟩ := hall (slot + 1) exprs hexprs
      refine ⟨group filter slot condition connective exprs hchildren hcondition hconnective hQ, ?_⟩
      rw [hnext, count_eq_sum]
      omega

end Induction

/-- A filter takes as many slots as it has nodes. -/
theorem compileFrom_next {filter : Filter} {slot next : Nat} {expr : Expr}
    (hcompile : compileFrom strict filter slot = .ok (expr, next)) :
    next = slot + filter.count :=
  (compileFrom_ok_induction (P := fun _ _ _ => True) (Q := fun _ _ _ => True)
    (fun _ _ _ _ _ => trivial) (fun _ _ _ _ _ _ _ _ _ => trivial) (fun _ => trivial)
    (fun _ _ _ _ _ _ _ => trivial) hcompile).2

/-- A successful compilation has passed the check of the size, and has compiled the root from slot
zero. -/
theorem compile_eq_ok {limits : Limits} {filter : Filter} {predicate : Predicate}
    (hcompile : filter.compile limits = .ok predicate) :
    filter.checkSize limits = .ok () ∧
      ∃ next, compileFrom limits.strictPaths filter 0 = .ok (predicate.expr, next) ∧
        predicate.parameters = filter.parameters := by
  rw [compile] at hcompile
  obtain ⟨_, hsize, hcompile⟩ := bind_eq_ok_iff.mp hcompile
  obtain ⟨⟨expr, next⟩, hroot, hcompile⟩ := bind_eq_ok_iff.mp hcompile
  obtain rfl := pure_eq_ok_iff.mp hcompile
  exact ⟨hsize, next, hroot, rfl⟩

end RecordQuery.Filter
