import RecordQuery.Proofs.Slots

/-!
# Assertions of the compiler

Two things are taken for granted while a filter is compiled: that the slot of the node at hand is
the place of this node in the list of all nodes, and that all slots have been given out in the end.
Here is a compiler that checks both and stops where one of them fails. It never stops: it answers as
the compiler without checks does, also on filters that are at fault.
-/

namespace RecordQuery.Filter

/-- The way from the root of a filter down to a node: the positions among the children. Nodes that
are equal still stand at different places. -/
abbrev Place := List Nat

mutual

/-- The nodes in pre-order, each with its place. The root is at a given place. -/
def placed (place : Place) : Filter → List (Place × Filter)
  | filter@⟨_, _, _, _, children⟩ => (place, filter) :: placedAll place 0 children

/-- The nodes below a node in pre-order, from the child at a given position on. -/
def placedAll (place : Place) (position : Nat) : List Filter → List (Place × Filter)
  | [] => []
  | filter :: filters =>
    placed (place ++ [position]) filter ++ placedAll place (position + 1) filters

end

/-- An outcome that was reached with all assertions met. -/
abbrev Asserted (α : Type) := ExceptT Fault Option α

/-- Stops unless an assertion is met. -/
def assert (met : Prop) [Decidable met] : Asserted Unit :=
  ExceptT.mk (if met then some (.ok ()) else none)

/-- An outcome that rests on no assertion. -/
def outright {α : Type} (outcome : Except Fault α) : Asserted α :=
  ExceptT.mk (some outcome)

mutual

/-- Compiles a node at a given place, and checks that the list of all nodes has this place at the
node's slot. -/
def compileAssertedFrom (strict : Bool) (nodes : List (Place × Filter)) (place : Place) :
    Filter → Nat → Asserted (Expr × Nat)
  | filter@⟨_, _, _, _, []⟩, slot => do
    assert (nodes[slot]?.map (·.1) = some place)
    let condition ← outright (ownCondition strict filter slot)
    pure (.leaf condition, slot + 1)
  | filter@⟨_, _, _, _, child :: children⟩, slot => do
    assert (nodes[slot]?.map (·.1) = some place)
    let condition ← outright (ownCondition strict filter slot)
    let connective ← outright (readConnective filter)
    let (first, next) ← compileAssertedFrom strict nodes (place ++ [0]) child (slot + 1)
    let (others, next) ← compileAllAssertedFrom strict nodes place 1 children next
    pure (.group condition connective (first :: others), next)

/-- Compiles the children of a node from a given position on. -/
def compileAllAssertedFrom (strict : Bool) (nodes : List (Place × Filter)) (place : Place)
    (position : Nat) : List Filter → Nat → Asserted (List Expr × Nat)
  | [], slot => pure ([], slot)
  | filter :: filters, slot => do
    let (expr, next) ← compileAssertedFrom strict nodes (place ++ [position]) filter slot
    let (exprs, next) ← compileAllAssertedFrom strict nodes place (position + 1) filters next
    pure (expr :: exprs, next)

end

/-- Compiles a filter under limits, and checks in the end that all slots have been given out. The
outcome is `none` if an assertion was not met. -/
def compileAsserted (limits : Limits) (filter : Filter) : Option (Except Fault Predicate) :=
  ExceptT.run do
    outright (filter.checkSize limits)
    let nodes := filter.placed []
    let (expr, next) ← compileAssertedFrom limits.strictPaths nodes [] filter 0
    assert (next = nodes.length)
    pure { expr, parameters := nodes.map (·.2.parameter) }

/-- Without their places, the nodes are those of pre-order. -/
theorem map_snd_placed (place : Place) (filter : Filter) :
    (filter.placed place).map (·.2) = filter.flatten := by
  induction filter using Filter.induction generalizing place with
  | node filter ih =>
    obtain ⟨field, operator, value, connective, children⟩ := filter
    rw [placed, flatten, List.map_cons, flattenAll_eq_flatMap]
    congr 1
    refine forall_mem_induction (Q := fun filters => ∀ position,
      (placedAll place position filters).map (·.2) = filters.flatMap flatten) ?_ ?_ ih 0
    · intro position
      rfl
    · intro child filters ihchild ihrest position
      rw [placedAll, List.map_append, List.flatMap_cons, ihchild, ihrest]

/-- There is one place for every node. -/
theorem length_placed (place : Place) (filter : Filter) :
    (filter.placed place).length = filter.count := by
  rw [← length_flatten, ← map_snd_placed place filter, List.length_map]

mutual

/-- Places below a node lead through it. -/
theorem prefix_of_mem_placed (place : Place) : ∀ (filter : Filter) {entry : Place × Filter},
    entry ∈ filter.placed place → place <+: entry.1
  | ⟨_, _, _, _, children⟩, entry, hentry => by
    rw [placed] at hentry
    rcases List.mem_cons.mp hentry with rfl | hentry
    · exact List.prefix_rfl
    · obtain ⟨position, _, hprefix⟩ := prefix_of_mem_placedAll place 0 children hentry
      exact (List.prefix_append place [position]).trans hprefix

/-- Places below the children from a given position on lead through one of these children. -/
theorem prefix_of_mem_placedAll (place : Place) : ∀ (first : Nat) (filters : List Filter)
    {entry : Place × Filter}, entry ∈ placedAll place first filters →
    ∃ position, first ≤ position ∧ place ++ [position] <+: entry.1
  | _, [], _, hentry => absurd hentry List.not_mem_nil
  | first, filter :: filters, entry, hentry => by
    rw [placedAll] at hentry
    rcases List.mem_append.mp hentry with hentry | hentry
    · exact ⟨first, Nat.le_refl first, prefix_of_mem_placed _ filter hentry⟩
    · obtain ⟨position, hle, hprefix⟩ := prefix_of_mem_placedAll place (first + 1) filters hentry
      exact ⟨position, by omega, hprefix⟩

end

/-- A place leads through at most one child of a node. -/
theorem position_unique {place entry : Place} {i j : Nat} (hi : place ++ [i] <+: entry)
    (hj : place ++ [j] <+: entry) : i = j := by
  have heq := List.prefix_of_prefix_length_le hi hj (by simp)
  have hat := heq.getElem (i := place.length) (by simp)
  simpa using hat

mutual

/-- No two nodes have the same place. -/
theorem nodup_placed (place : Place) : ∀ filter : Filter, ((filter.placed place).map (·.1)).Nodup
  | ⟨_, _, _, _, children⟩ => by
    rw [placed, List.map_cons, List.nodup_cons]
    refine ⟨?_, nodup_placedAll place 0 children⟩
    intro hmem
    obtain ⟨entry, hentry, heq⟩ := List.mem_map.mp hmem
    obtain ⟨position, _, hprefix⟩ := prefix_of_mem_placedAll place 0 children hentry
    have hle := hprefix.length_le
    dsimp only at heq
    rw [heq, List.length_append, List.length_singleton] at hle
    omega

/-- No two nodes below the children from a given position on have the same place. -/
theorem nodup_placedAll (place : Place) : ∀ (first : Nat) (filters : List Filter),
    ((placedAll place first filters).map (·.1)).Nodup
  | _, [] => List.nodup_nil
  | first, filter :: filters => by
    rw [placedAll, List.map_append, List.nodup_append]
    refine ⟨nodup_placed _ filter, nodup_placedAll place (first + 1) filters, ?_⟩
    rintro p hp q hq rfl
    obtain ⟨a, ha, rfl⟩ := List.mem_map.mp hp
    obtain ⟨b, hb, heq⟩ := List.mem_map.mp hq
    obtain ⟨position, hle, hprefix⟩ := prefix_of_mem_placedAll place (first + 1) filters hb
    rw [heq] at hprefix
    have := position_unique (prefix_of_mem_placed _ filter ha) hprefix
    omega

end

section Erasure

variable {α β : Type}

/-- An assertion that is met is passed. -/
theorem assert_bind {met : Prop} [Decidable met] (hmet : met) (f : Unit → Asserted α) :
    assert met >>= f = f () := by
  simp only [assert, if_pos hmet]
  rfl

/-- Steps without assertions, if the second one rests on none with any result of the first. -/
theorem outright_bind {x : Except Fault α} {f : α → Asserted β} {g : α → Except Fault β}
    (hstep : ∀ a, x = .ok a → f a = outright (g a)) :
    outright x >>= f = outright (x >>= g) := by
  cases x with
  | error fault => rfl
  | ok a => exact hstep a rfl

variable {strict : Bool} {nodes : List (Place × Filter)}

/-- The compiler with assertions on a node without children. -/
theorem compileAssertedFrom_of_children_eq_nil {filter : Filter} (hchildren : filter.children = [])
    (place : Place) (slot : Nat) :
    compileAssertedFrom strict nodes place filter slot = (do
      assert (nodes[slot]?.map (·.1) = some place)
      let condition ← outright (ownCondition strict filter slot)
      pure (.leaf condition, slot + 1)) := by
  obtain ⟨field, operator, value, connective, children⟩ := filter
  obtain rfl : children = [] := hchildren
  rw [compileAssertedFrom]

/-- The compiler with assertions on a node with children. -/
theorem compileAssertedFrom_of_children_ne_nil {filter : Filter} (hchildren : filter.children ≠ [])
    (place : Place) (slot : Nat) :
    compileAssertedFrom strict nodes place filter slot = (do
      assert (nodes[slot]?.map (·.1) = some place)
      let condition ← outright (ownCondition strict filter slot)
      let connective ← outright (readConnective filter)
      let (exprs, next) ← compileAllAssertedFrom strict nodes place 0 filter.children (slot + 1)
      pure (.group condition connective exprs, next)) := by
  obtain ⟨field, operator, value, connective, _ | ⟨child, children⟩⟩ := filter
  · exact absurd rfl hchildren
  · rw [compileAssertedFrom]
    simp only [compileAllAssertedFrom, bind_assoc, pure_bind]

/-- Where the list of nodes has a filter with all that is below it, from the slot of the root on, no
assertion fails while this filter is compiled. -/
theorem compileAssertedFrom_eq {filter : Filter} {place : Place} {slot : Nat}
    (before after : List (Place × Filter)) (hslot : before.length = slot)
    (hnodes : nodes = before ++ filter.placed place ++ after) :
    compileAssertedFrom strict nodes place filter slot =
      outright (compileFrom strict filter slot) := by
  induction filter using Filter.induction generalizing place slot before after with
  | node filter ih =>
    have hplaced : filter.placed place =
        (place, filter) :: placedAll place 0 filter.children := by
      obtain ⟨field, operator, value, connective, children⟩ := filter
      rw [placed]
    have hat : nodes[slot]?.map (·.1) = some place := by
      rw [hnodes, hplaced, ← hslot]
      simp
    by_cases hchildren : filter.children = []
    · rw [compileAssertedFrom_of_children_eq_nil hchildren,
        compileFrom_of_children_eq_nil hchildren, assert_bind hat]
      cases ownCondition strict filter slot <;> rfl
    · rw [compileAssertedFrom_of_children_ne_nil hchildren,
        compileFrom_of_children_ne_nil hchildren, assert_bind hat]
      refine outright_bind fun condition _ => outright_bind fun connective _ => ?_
      -- The children stand one after the other, each behind all that is below the last one.
      have hall : ∀ position slot before, before.length = slot →
          nodes = before ++ placedAll place position filter.children ++ after →
          compileAllAssertedFrom strict nodes place position filter.children slot =
            outright (compileAllFrom strict filter.children slot) := by
        refine forall_mem_induction (Q := fun filters => ∀ position slot before,
          before.length = slot → nodes = before ++ placedAll place position filters ++ after →
            compileAllAssertedFrom strict nodes place position filters slot =
              outright (compileAllFrom strict filters slot)) ?_ ?_ ih
        · intro position slot before _ _
          rfl
        · intro child filters ihchild ihrest position slot before hslot hnodes
          rw [compileAllAssertedFrom, compileAllFrom]
          rw [placedAll, ← List.append_assoc] at hnodes
          rw [ihchild before (placedAll place (position + 1) filters ++ after) hslot
            (by simpa using hnodes)]
          refine outright_bind fun result hresult => ?_
          obtain ⟨expr, middle⟩ := result
          obtain rfl := compileFrom_next hresult
          dsimp only
          rw [ihrest (position + 1) (slot + child.count)
            (before ++ child.placed (place ++ [position]))
            (by rw [List.length_append, length_placed, hslot]) hnodes]
          exact outright_bind fun _ _ => rfl
      rw [hall 0 (slot + 1) (before ++ [(place, filter)]) (by simp [hslot])
        (by rw [hnodes, hplaced]; simp)]
      exact outright_bind fun _ _ => rfl

/-- No assertion of the compiler ever fails, whatever the filter and the limits. -/
theorem compileAsserted_eq (limits : Limits) (filter : Filter) :
    filter.compileAsserted limits = some (filter.compile limits) := by
  have hparameters : (filter.placed []).map (fun node => node.2.parameter) = filter.parameters := by
    rw [parameters, ← map_snd_placed [] filter, List.map_map]
    rfl
  have hroot : compileAssertedFrom limits.strictPaths (filter.placed []) [] filter 0 =
      outright (compileFrom limits.strictPaths filter 0) :=
    compileAssertedFrom_eq [] [] rfl (by simp)
  have hrun : filter.compileAsserted limits = (outright (filter.compile limits)).run := by
    unfold compileAsserted compile
    refine congrArg ExceptT.run (outright_bind fun _ _ => ?_)
    dsimp only
    rw [hroot]
    refine outright_bind fun result hresult => ?_
    obtain ⟨expr, next⟩ := result
    have hnext : next = (filter.placed []).length := by
      rw [compileFrom_next hresult, length_placed, Nat.zero_add]
    dsimp only
    rw [assert_bind hnext, hparameters]
    rfl
  exact hrun

end Erasure

/-- Every node has a place of its own, the assertions of the compiler about slots hold on every run,
and a predicate is aligned with the filter from which it was compiled. -/
theorem compile_aligned (limits : Limits) (filter : Filter) :
    ((filter.placed []).map (·.1)).Nodup ∧
      filter.compileAsserted limits = some (filter.compile limits) ∧
      ∀ predicate, filter.compile limits = .ok predicate → Aligned filter predicate :=
  ⟨nodup_placed [] filter, compileAsserted_eq limits filter,
    fun _ hcompile => aligned_of_compile hcompile⟩

/-- Two equal children still have slots of their own, and so has a test for null with a value. -/
theorem aligned_equal_children :
    let child := leaf "x" "eq" |>.withValue "1"
    let test := leaf "y" "isnull" |>.withValue "2"
    let predicate : Predicate :=
      ⟨.group none .or [.leaf (some (.compare "x" .equal 1)),
        .group (some (.nullTest "y" false)) .and [.leaf (some (.compare "x" .equal 3))]],
        ["", "1", "2", "1"]⟩
    (group "or" [child, test.withConnective "and" |>.withChild child]).compile {} = .ok predicate ∧
      Aligned (group "or" [child, test.withConnective "and" |>.withChild child]) predicate :=
  ⟨rfl, (compile_aligned {} _).2.2 _ rfl⟩

end RecordQuery.Filter
