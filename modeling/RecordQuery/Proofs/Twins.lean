import Mathlib.Data.List.Forall2
import RecordQuery.Proofs.Compilation

/-!
# Values stay out of expressions

Two filters that differ in the texts of their values only are twins. They are compiled to the same
expression, or fail for the same reason, whatever the texts are: a value is seen in the parameters
alone. What the compiler does see of a value is whether there is one.
-/

namespace RecordQuery.Filter

/-- Filters of one shape that agree in everything but the texts of their values. At every node
either both have a value that is not empty, or neither has. -/
inductive Twins : Filter → Filter → Prop
  | node {filter other : Filter} : filter.field = other.field → filter.operator = other.operator →
    filter.connective = other.connective →
    (filter.value.getD "" = "" ↔ other.value.getD "" = "") →
    List.Forall₂ Twins filter.children other.children → Twins filter other

variable {strict : Bool} {filter other : Filter}

/-- A relation between the children of two nodes that carries over to what is computed from them
makes the results for all children the same. -/
theorem map_eq_of_forall₂ {β : Type} {f : Filter → β} {filters others : List Filter}
    (htwins : List.Forall₂ Twins filters others)
    (hsame : ∀ child ∈ filters, ∀ other, Twins child other → f child = f other) :
    filters.map f = others.map f := by
  induction htwins with
  | nil => rfl
  | cons htwin htail ih =>
    obtain ⟨hhead, hrest⟩ := List.forall_mem_cons.mp hsame
    rw [List.map_cons, List.map_cons, hhead _ htwin, ih hrest]

namespace Twins

/-- A filter is its own twin. -/
theorem refl (filter : Filter) : Twins filter filter := by
  induction filter using Filter.induction with
  | node filter ih => exact .node rfl rfl rfl Iff.rfl (List.forall₂_same.mpr ih)

/-- Twins both have a value, or neither has. -/
theorem hasValue_eq (h : Twins filter other) : filter.hasValue = other.hasValue := by
  cases h with
  | node _ _ _ hvalue _ =>
    have hparameter : filter.parameter = "" ↔ other.parameter = "" := hvalue
    rw [hasValue, hasValue, Bool.eq_iff_iff, bne_iff_ne, bne_iff_ne]
    exact not_congr hparameter

/-- Twins both have children, or neither has. -/
theorem children_eq_nil_iff (h : Twins filter other) :
    filter.children = [] ↔ other.children = [] := by
  cases h with
  | node _ _ _ _ hchildren =>
    rw [← List.length_eq_zero_iff, ← List.length_eq_zero_iff, hchildren.length_eq]

/-- Twins have as many nodes. -/
theorem count_eq (h : Twins filter other) : filter.count = other.count := by
  induction filter using Filter.induction generalizing other with
  | node filter ih =>
    cases h with
    | node _ _ _ _ hchildren =>
      rw [count_eq_sum, count_eq_sum other, map_eq_of_forall₂ hchildren ih]

/-- Twins are nested equally deep. -/
theorem depth_eq (h : Twins filter other) : filter.depth = other.depth := by
  induction filter using Filter.induction generalizing other with
  | node filter ih =>
    cases h with
    | node _ _ _ _ hchildren =>
      rw [depth_eq_foldr, depth_eq_foldr other, map_eq_of_forall₂ hchildren ih]

/-- Twins both only group their children, or neither does. -/
theorem isGrouping_eq (h : Twins filter other) : filter.isGrouping = other.isGrouping := by
  have hvalue := h.hasValue_eq
  have hnil := h.children_eq_nil_iff
  cases h with
  | node hfield hoperator _ _ _ =>
    have hempty : filter.children.isEmpty = other.children.isEmpty := by
      rw [Bool.eq_iff_iff, List.isEmpty_iff, List.isEmpty_iff]
      exact hnil
    rw [isGrouping, isGrouping, hempty, hfield, hoperator, hvalue]

/-- Twins have the same operator, or fail to have one for the same reason. -/
theorem readOperator_eq (h : Twins filter other) :
    readOperator strict filter = readOperator strict other := by
  cases h with
  | node hfield hoperator _ _ _ => rw [readOperator, readOperator, hfield, hoperator]

/-- An operator forms the same condition of twins in the same slot. -/
theorem formCondition_eq (h : Twins filter other) (op : Operator) (slot : Nat) :
    filter.formCondition op slot = other.formCondition op slot := by
  have hvalue := h.hasValue_eq
  cases h with
  | node hfield _ _ _ _ => rw [formCondition, formCondition, hfield, hvalue]

/-- Twins have the same condition in the same slot. -/
theorem ownCondition_eq (h : Twins filter other) (slot : Nat) :
    ownCondition strict filter slot = ownCondition strict other slot := by
  have hform : (filter.formCondition · slot) = (other.formCondition · slot) :=
    funext fun op => h.formCondition_eq op slot
  rw [ownCondition, ownCondition, h.isGrouping_eq, h.readOperator_eq, hform]

/-- Twins have the same connective. -/
theorem readConnective_eq (h : Twins filter other) :
    readConnective filter = readConnective other := by
  cases h with
  | node _ _ hconnective _ _ => rw [readConnective, readConnective, hconnective]

/-- Twins are compiled alike from the same slot. -/
theorem compileFrom_eq (h : Twins filter other) (slot : Nat) :
    compileFrom strict filter slot = compileFrom strict other slot := by
  induction filter using Filter.induction generalizing other slot with
  | node filter ih =>
    by_cases hnil : filter.children = []
    · rw [compileFrom_of_children_eq_nil hnil,
        compileFrom_of_children_eq_nil (h.children_eq_nil_iff.mp hnil), h.ownCondition_eq]
    · have hall : ∀ others slot, List.Forall₂ Twins filter.children others →
          compileAllFrom strict filter.children slot = compileAllFrom strict others slot := by
        refine forall_mem_induction (Q := fun filters => ∀ others slot,
          List.Forall₂ Twins filters others →
            compileAllFrom strict filters slot = compileAllFrom strict others slot) ?_ ?_ ih
        · intro others slot hothers
          cases hothers
          rfl
        · intro child filters ihchild ihrest others slot hothers
          cases hothers with
          | cons htwin htail =>
            rw [compileAllFrom, compileAllFrom, ihchild htwin slot]
            congr 1
            funext first
            obtain ⟨expr, next⟩ := first
            dsimp only
            rw [ihrest _ next htail]
      have hchildren : List.Forall₂ Twins filter.children other.children := by
        cases h with
        | node _ _ _ _ hchildren => exact hchildren
      rw [compileFrom_of_children_ne_nil hnil,
        compileFrom_of_children_ne_nil (mt h.children_eq_nil_iff.mpr hnil), h.ownCondition_eq,
        h.readConnective_eq, hall _ (slot + 1) hchildren]

end Twins

/-- Twins fail to compile for the same reason, or are compiled to the same expression with the same
text. The parameters are the values of each one's own nodes, in pre-order. -/
theorem compile_twins {limits : Limits} {filter other : Filter} (h : Twins filter other) :
    (∃ fault, filter.compile limits = .error fault ∧ other.compile limits = .error fault) ∨
      ∃ predicate twin, filter.compile limits = .ok predicate ∧ other.compile limits = .ok twin ∧
        predicate.expr = twin.expr ∧ predicate.expression = twin.expression ∧
        predicate.parameters = filter.flatten.map (·.value.getD "") ∧
        twin.parameters = other.flatten.map (·.value.getD "") := by
  have hsize : filter.checkSize limits = other.checkSize limits := by
    rw [checkSize, checkSize, h.depth_eq, h.count_eq]
  have hroot : compileFrom limits.strictPaths filter 0 = compileFrom limits.strictPaths other 0 :=
    h.compileFrom_eq 0
  rw [compile, compile, ← hsize, ← hroot]
  cases filter.checkSize limits with
  | error fault => exact .inl ⟨fault, rfl, rfl⟩
  | ok _ =>
    cases compileFrom limits.strictPaths filter 0 with
    | error fault => exact .inl ⟨fault, rfl, rfl⟩
    | ok result => exact .inr ⟨_, _, rfl, rfl, rfl, rfl, rfl, rfl⟩

/-- A filter with a given value in a condition, and a node with children of its own behind it. -/
def quoting (value : String) : Filter :=
  group "or" [leaf "name" "contains" |>.withValue value,
    leaf "age" "isnull" |>.withConnective "and" |>.withChild (leaf "age" "gte")]

/-- A value that would close the condition and open another one is a parameter like any other. -/
theorem compile_twins_quoting :
    Twins (quoting "x") (quoting "@1)) or (1 = 1") ∧
      ((∃ fault, (quoting "x").compile {} = .error fault ∧
          (quoting "@1)) or (1 = 1").compile {} = .error fault) ∨
        ∃ predicate twin, (quoting "x").compile {} = .ok predicate ∧
          (quoting "@1)) or (1 = 1").compile {} = .ok twin ∧
          predicate.expr = twin.expr ∧ predicate.expression = twin.expression ∧
          predicate.parameters = (quoting "x").flatten.map (·.value.getD "") ∧
          twin.parameters = (quoting "@1)) or (1 = 1").flatten.map (·.value.getD "")) := by
  have hcondition : Twins (leaf "name" "contains" |>.withValue "x")
      (leaf "name" "contains" |>.withValue "@1)) or (1 = 1") :=
    .node rfl rfl rfl (by decide) .nil
  have htwins : Twins (quoting "x") (quoting "@1)) or (1 = 1") :=
    .node rfl rfl rfl Iff.rfl (.cons hcondition (.cons (.refl _) .nil))
  exact ⟨htwins, compile_twins htwins⟩

end RecordQuery.Filter
