import RecordQuery.Proofs.Conditionless
import RecordQuery.Proofs.FirstFault

/-!
# Groups around a filter

A group around a single filter adds a level and a node, and no condition. All slots of the filter
move behind that of the group and its parameters move with them, so the filter keeps its meaning,
whatever the connective of the group is.
-/

namespace RecordQuery.Filter

/-- A filter in groups, one around the other. The first connective is that of the innermost group.
-/
def wrap (filter : Filter) (connectives : List Connective) : Filter :=
  connectives.foldl (fun inner connective => group connective.token [inner]) filter

variable {limits : Limits} {filter : Filter} {predicate : Predicate}

/-! ## One group around a filter -/

/-- A group around a filter only groups it. -/
theorem isGrouping_group_singleton (token : String) (filter : Filter) :
    (group token [filter]).isGrouping = true := rfl

/-- A group around a filter is one level above it. -/
theorem depth_group_singleton (token : String) (filter : Filter) :
    (group token [filter]).depth = filter.depth + 1 := by
  rw [depth_eq_foldr]
  simp [group]

/-- A group around a filter is one node more. -/
theorem count_group_singleton (token : String) (filter : Filter) :
    (group token [filter]).count = filter.count + 1 := by
  rw [count_eq_sum]
  simp [group]

/-- A group around a filter is compiled wherever the filter is, if it stays within the limits. -/
theorem exists_compile_group_singleton (connective : Connective)
    (hcompile : filter.compile limits = .ok predicate) (hdepth : filter.depth + 1 ≤ limits.maxDepth)
    (hcount : filter.count + 1 ≤ limits.maxNodes) :
    ∃ outer, (group connective.token [filter]).compile limits = .ok outer := by
  obtain ⟨_, _, hnodes⟩ := exists_compile_iff.mp ⟨predicate, hcompile⟩
  refine exists_compile_iff.mpr ⟨?_, ?_, forall_mem_flatten.mpr ⟨?_, ?_⟩⟩
  · rwa [depth_group_singleton]
  · rwa [count_group_singleton]
  · exact nodeFault?_group limits.strictPaths connective (List.cons_ne_nil filter [])
  · simpa [group] using hnodes

/-- A group around a filter means what the filter means. -/
theorem meaning_group_singleton (connective : Connective) (filter : Filter) (record : Record) :
    (group connective.token [filter]).meaning record = filter.meaning record := by
  have hconnective : readConnective (group connective.token [filter]) = .ok connective :=
    readConnective_eq_ok_iff.mpr rfl
  rw [meaning_of_isGrouping (isGrouping_group_singleton _ filter) hconnective]
  cases connective with
  | and => rfl
  | or => rfl

/-- A group around a filter has a condition exactly if the filter has one. -/
theorem isMatchAll_group_singleton {outer : Predicate} {connective : Connective}
    (hcompile : filter.compile limits = .ok predicate)
    (houter : (group connective.token [filter]).compile limits = .ok outer) :
    outer.isMatchAll = predicate.isMatchAll := by
  have hgroup := hasCondition_of_isGrouping (isGrouping_group_singleton connective.token filter)
  rw [Bool.eq_iff_iff, isMatchAll_iff_of_compile hcompile, isMatchAll_iff_of_compile houter,
    forall_mem_flatten, and_iff_right hgroup]
  simp [group]

/-! ## Any number of groups -/

/-- A filter that compiles also compiles in groups, one around the other, as long as it stays within
the limits. Every group has an empty parameter in front of those of the filter. The same records
match, and the groups have no condition of their own. -/
theorem compile_wrap (hcompile : filter.compile limits = .ok predicate)
    (connectives : List Connective)
    (hdepth : filter.depth + connectives.length ≤ limits.maxDepth)
    (hcount : filter.count + connectives.length ≤ limits.maxNodes) :
    ∃ wrapped, (filter.wrap connectives).compile limits = .ok wrapped ∧
      wrapped.parameters = List.replicate connectives.length "" ++ predicate.parameters ∧
      (∀ record, wrapped.accepts record = predicate.accepts record) ∧
      wrapped.isMatchAll = predicate.isMatchAll := by
  induction connectives generalizing filter predicate with
  | nil => exact ⟨predicate, hcompile, rfl, fun _ => rfl, rfl⟩
  | cons connective connectives ih =>
    rw [List.length_cons] at hdepth hcount
    obtain ⟨outer, houter⟩ :=
      exists_compile_group_singleton connective hcompile (by omega) (by omega)
    have houterDepth := depth_group_singleton connective.token filter
    have houterCount := count_group_singleton connective.token filter
    obtain ⟨wrapped, hwrapped, hparameters, haccepts, hmatchAll⟩ :=
      ih houter (by omega) (by omega)
    refine ⟨wrapped, hwrapped, ?_, fun record => ?_, ?_⟩
    · obtain ⟨_, _, _, hinner⟩ := compile_eq_ok hcompile
      obtain ⟨_, _, _, hgroup⟩ := compile_eq_ok houter
      rw [hparameters, hgroup, hinner, parameters_eq_cons (group connective.token [filter]),
        List.length_cons, List.replicate_succ']
      simp [group, parameter]
    · rw [haccepts, accepts_eq_meaning houter, meaning_group_singleton,
        accepts_eq_meaning hcompile]
    · rw [hmatchAll, isMatchAll_group_singleton hcompile houter]

/-- A filter with a condition of its own over an `or` group that takes its clause apart, in as many
groups as the limits have room for. -/
theorem compile_wrap_tight :
    let filter := leaf "a" "gt" |>.withValue "1" |>.withConnective "and" |>.withChild
      (group "or" [leaf "b" "contains" |>.withValue "x", leaf "c" "eq"])
    let limits : Limits := { maxDepth := 6, maxNodes := 7 }
    ∃ predicate wrapped, filter.compile limits = .ok predicate ∧
      filter.depth + 3 = limits.maxDepth ∧ filter.count + 3 = limits.maxNodes ∧
      (filter.wrap [.or, .and, .or]).compile limits = .ok wrapped ∧
      wrapped.parameters = ["", "", "", "1", "", "x", ""] ∧
      (∀ record, wrapped.accepts record = predicate.accepts record) ∧
      wrapped.isMatchAll = predicate.isMatchAll := by
  intro filter limits
  obtain ⟨predicate, hcompile⟩ : ∃ predicate, filter.compile limits = .ok predicate := ⟨_, rfl⟩
  obtain ⟨wrapped, hwrapped, hparameters, haccepts, hmatchAll⟩ :=
    compile_wrap hcompile [.or, .and, .or] (by decide) (by decide)
  obtain rfl := Except.ok.inj hcompile
  exact ⟨_, wrapped, hcompile, by decide, by decide, hwrapped, hparameters, haccepts, hmatchAll⟩

end RecordQuery.Filter
