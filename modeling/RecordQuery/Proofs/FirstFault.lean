import RecordQuery.Proofs.Compilation

/-!
# The first fault of a filter

What is wrong with a filter, told without compiling it: its size is looked at first, and then each
node by itself, in pre-order. The compiler goes down the filter and stops at the first failure, at
which it may be deep below a child. It stops with the fault that is told here, and it stops nowhere
else.
-/

namespace RecordQuery.Filter

/-- A node that only has children to combine: it has children, and its field, operator and value are
empty. -/
def OnlyCombines (node : Filter) : Prop :=
  node.children ≠ [] ∧ node.field = "" ∧ node.operator = "" ∧ node.value.getD "" = ""

instance (node : Filter) : Decidable node.OnlyCombines :=
  inferInstanceAs (Decidable (_ ∧ _))

/-- What is wrong with the condition of a node. A node that only combines its children has none. -/
def conditionFault? (strict : Bool) (node : Filter) : Option Fault :=
  if node.OnlyCombines then none
  else if node.field = "" then some (.field "")
  else if strict ∧ Path.read? node.field.toList = none then some (.field node.field)
  else if node.operator ∈ Operator.all.map Operator.token then none
  else some (.operator node.operator)

/-- What is wrong with the connective of a node. A node without children needs none. -/
def connectiveFault? (node : Filter) : Option Fault :=
  if node.children = [] then none
  else match node.connective with
    | none => some (.connective "")
    | some token => if token ∈ ["and", "or"] then none else some (.connective token)

/-- What is wrong with a node by itself: with its condition, or else with its connective. -/
def nodeFault? (strict : Bool) (node : Filter) : Option Fault :=
  (conditionFault? strict node).or (connectiveFault? node)

/-- The first thing wrong with a filter under limits. -/
def firstFault? (limits : Limits) (filter : Filter) : Option Fault :=
  if limits.maxDepth < filter.depth then some (.tooDeep limits.maxDepth)
  else if limits.maxNodes < filter.count then some (.tooManyNodes filter.count limits.maxNodes)
  else filter.flatten.findSome? (nodeFault? limits.strictPaths)

variable {strict : Bool}

theorem isGrouping_iff {node : Filter} : node.isGrouping = true ↔ node.OnlyCombines := by
  simp [isGrouping, OnlyCombines, hasValue, parameter, and_assoc]

/-- An operator is missing only if its token is none of the tokens. -/
theorem errorOf?_operator (token : String) :
    errorOf? (Operator.ofToken token) =
      if token ∈ Operator.all.map Operator.token then none else some (.operator token) := by
  unfold Operator.ofToken
  split
  · next op hfind =>
    have htoken : op.token = token := by simpa using List.find?_some hfind
    have hmem : token ∈ Operator.all.map Operator.token :=
      List.mem_map.mpr ⟨op, List.mem_of_find?_eq_some hfind, htoken⟩
    rw [if_pos hmem]
    rfl
  · next hfind =>
    have hmem : token ∉ Operator.all.map Operator.token := by
      intro hmem
      obtain ⟨op, hop, htoken⟩ := List.mem_map.mp hmem
      simpa [htoken] using List.find?_eq_none.mp hfind op hop
    rw [if_neg hmem]
    rfl

/-- A path is missing only if the field does not read as one. -/
theorem errorOf?_path (field : String) :
    errorOf? (Path.parse field) =
      if Path.read? field.toList = none then some (.field field) else none := by
  unfold Path.parse
  cases Path.read? field.toList with
  | none => rfl
  | some path => rfl

/-- A node that has a condition fails to read its operator for what is wrong with the condition. -/
theorem errorOf?_readOperator {node : Filter} (hcombines : ¬ node.OnlyCombines) :
    errorOf? (readOperator strict node) = conditionFault? strict node := by
  rw [conditionFault?, if_neg hcombines]
  by_cases hfield : node.field = ""
  · rw [if_pos hfield, readOperator_of_field_eq hfield]
    rfl
  · rw [if_neg hfield]
    cases strict with
    | false =>
      rw [readOperator_false hfield, errorOf?_operator]
      simp
    | true =>
      rw [readOperator_true hfield, errorOf?_bind fun _ _ => errorOf?_operator node.operator,
        errorOf?_path]
      by_cases hpath : Path.read? node.field.toList = none
      · simp [hpath]
      · simp [hpath]

/-- The condition of a node fails for what is wrong with it, in every slot. -/
theorem errorOf?_ownCondition (node : Filter) (slot : Nat) :
    errorOf? (ownCondition strict node slot) = conditionFault? strict node := by
  unfold ownCondition
  by_cases hgrouping : node.isGrouping = true
  · rw [if_pos hgrouping, conditionFault?, if_pos (isGrouping_iff.mp hgrouping)]
    rfl
  · rw [if_neg hgrouping, errorOf?_map]
    exact errorOf?_readOperator (mt isGrouping_iff.mpr hgrouping)

/-- The connective of a node with children fails for what is wrong with it. -/
theorem errorOf?_readConnective {node : Filter} (hchildren : node.children ≠ []) :
    errorOf? (readConnective node) = connectiveFault? node := by
  unfold readConnective connectiveFault?
  rw [if_neg hchildren]
  cases node.connective with
  | none => rfl
  | some token =>
    dsimp only
    unfold Connective.ofToken
    by_cases hand : token = "and"
    · simp [hand, errorOf?]
    · by_cases hor : token = "or"
      · simp [hor, errorOf?]
      · simp [hand, hor, errorOf?]

/-- A node that only groups children under a connective has no fault, if there are any. -/
theorem nodeFault?_group (strict : Bool) (connective : Connective) {children : List Filter}
    (hchildren : children ≠ []) : nodeFault? strict (group connective.token children) = none := by
  have hcombines : (group connective.token children).OnlyCombines := ⟨hchildren, rfl, rfl, rfl⟩
  have hne : (group connective.token children).children ≠ [] := hchildren
  rw [nodeFault?, conditionFault?, if_pos hcombines, Option.none_or, connectiveFault?, if_neg hne]
  cases connective with
  | and => rfl
  | or => rfl

/-- A compilation fails for the first node in pre-order with which something is wrong, in every
slot. -/
theorem errorOf?_compileFrom (filter : Filter) (slot : Nat) :
    errorOf? (compileFrom strict filter slot) =
      filter.flatten.findSome? (nodeFault? strict) := by
  induction filter using Filter.induction generalizing slot with
  | node filter ih =>
    rw [flatten_eq_cons]
    by_cases hchildren : filter.children = []
    · rw [compileFrom_of_children_eq_nil hchildren, errorOf?_map, errorOf?_ownCondition,
        hchildren, List.flatMap_nil, List.findSome?_singleton, nodeFault?, connectiveFault?,
        if_pos hchildren, Option.or_none]
    · -- The nodes below the children are looked at one child after the other.
      have hall : ∀ slot, errorOf? (compileAllFrom strict filter.children slot) =
          (filter.children.flatMap flatten).findSome? (nodeFault? strict) := by
        refine forall_mem_induction (Q := fun filters => ∀ slot,
          errorOf? (compileAllFrom strict filters slot) =
            (filters.flatMap flatten).findSome? (nodeFault? strict)) ?_ ?_ ih
        · intro slot
          rfl
        · intro child filters ihchild ihrest slot
          rw [compileAllFrom, List.flatMap_cons, List.findSome?_append, ← ihchild slot]
          refine errorOf?_bind fun first _ => ?_
          rw [← ihrest first.2]
          exact errorOf?_bind_of_ok fun _ _ => rfl
      have hnode : (filter :: filter.children.flatMap flatten).findSome? (nodeFault? strict) =
          (conditionFault? strict filter).or ((connectiveFault? filter).or
            ((filter.children.flatMap flatten).findSome? (nodeFault? strict))) := by
        rw [List.findSome?_cons, ← Option.or_assoc, ← nodeFault?]
        cases nodeFault? strict filter <;> rfl
      rw [compileFrom_of_children_ne_nil hchildren, hnode, ← errorOf?_ownCondition filter slot,
        ← errorOf?_readConnective hchildren]
      refine errorOf?_bind fun condition _ => errorOf?_bind fun connective _ => ?_
      rw [← hall (slot + 1)]
      exact errorOf?_bind_of_ok fun _ _ => rfl

/-- The size of a filter fails for its depth, or else for the number of its nodes. -/
theorem errorOf?_checkSize (limits : Limits) (filter : Filter) :
    errorOf? (filter.checkSize limits) =
      if limits.maxDepth < filter.depth then some (.tooDeep limits.maxDepth)
      else if limits.maxNodes < filter.count then some (.tooManyNodes filter.count limits.maxNodes)
      else none := by
  unfold checkSize
  split
  · rfl
  · split
    · rfl
    · rfl

/-- A compilation fails for the first fault of the filter. -/
theorem errorOf?_compile (limits : Limits) (filter : Filter) :
    errorOf? (filter.compile limits) = filter.firstFault? limits := by
  have hsize : errorOf? (filter.compile limits) =
      (errorOf? (filter.checkSize limits)).or
        (filter.flatten.findSome? (nodeFault? limits.strictPaths)) := by
    rw [compile]
    refine errorOf?_bind fun _ _ => ?_
    rw [← errorOf?_compileFrom filter 0]
    exact errorOf?_bind_of_ok fun _ _ => rfl
  rw [hsize, errorOf?_checkSize, firstFault?]
  split
  · rfl
  · split
    · rfl
    · rfl

/-- A filter compiles exactly if its size is within the limits and nothing is wrong with any node. -/
theorem exists_compile_iff {limits : Limits} {filter : Filter} :
    (∃ predicate, filter.compile limits = .ok predicate) ↔
      filter.depth ≤ limits.maxDepth ∧ filter.count ≤ limits.maxNodes ∧
        ∀ node ∈ filter.flatten, nodeFault? limits.strictPaths node = none := by
  rw [← errorOf?_eq_none_iff, errorOf?_compile, firstFault?]
  split
  · next hdepth => simp [Nat.not_le_of_lt hdepth]
  · next hdepth =>
    split
    · next hcount => simp [Nat.not_le_of_lt hcount]
    · next hcount => simp [Nat.le_of_not_lt hdepth, Nat.le_of_not_lt hcount]

/-- A filter is rejected with its first fault, and compiles exactly if it has none. -/
theorem compile_reports_first (limits : Limits) (filter : Filter) :
    (∀ fault, filter.compile limits = .error fault ↔ filter.firstFault? limits = some fault) ∧
      ((∃ predicate, filter.compile limits = .ok predicate) ↔
        filter.firstFault? limits = none) := by
  rw [← errorOf?_compile]
  exact ⟨fun fault => errorOf?_eq_some_iff.symm, errorOf?_eq_none_iff.symm⟩

/-- The connective of a node comes before everything below it, and a deep fault under the first child
before one in the second. -/
example :
    let deep := group "and" [group "or" [leaf "a" "between" |>.withValue "1"]]
    let broken := leaf "" "eq"
    (group "xor" [deep, broken]).compile {} = .error (.connective "xor") ∧
      (group "or" [deep, broken]).compile {} = .error (.operator "between") ∧
      (group "or" [deep, broken]).compile { maxDepth := 3 } = .error (.tooDeep 3) :=
  ⟨rfl, rfl, rfl⟩

end RecordQuery.Filter
