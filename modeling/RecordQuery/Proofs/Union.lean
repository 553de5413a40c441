import RecordQuery.Proofs.Conditionless
import RecordQuery.Proofs.FirstFault

/-!
# Unions of filters

A node that only groups its children by `or` selects what some child selects by itself, whatever the
children look like inside: each of them stands behind an `or`, so no clause of one goes on in the
next. Children without a condition count only if there are no others. So neither the order of the
children nor how often one is repeated makes a difference.
-/

namespace RecordQuery.Filter

variable {limits : Limits} {record : Record} {filter : Filter} {filters others : List Filter}
  {predicate : Predicate}

/-! ## Which unions compile -/

/-- A node that only groups children by `or` has no fault, if there are any. -/
theorem nodeFault?_group_or (strict : Bool) (hne : filters ≠ []) :
    nodeFault? strict (group "or" filters) = none :=
  nodeFault?_group strict .or hne

/-- Without children, a group has a fault. -/
theorem nodeFault?_group_nil (strict : Bool) (connective : String) :
    nodeFault? strict (group connective []) = some (.field "") := rfl

/-- A union compiles exactly if it is one of some filters, all of which compile one level below, and
it does not have too many nodes. -/
theorem exists_compile_group_or_iff :
    (∃ predicate, (group "or" filters).compile limits = .ok predicate) ↔
      filters ≠ [] ∧ (group "or" filters).count ≤ limits.maxNodes ∧
        ∀ filter ∈ filters, filter.depth + 1 ≤ limits.maxDepth ∧
          ∀ node ∈ filter.flatten, nodeFault? limits.strictPaths node = none := by
  rw [exists_compile_iff, forall_mem_flatten]
  by_cases hne : filters = []
  · simp [hne, nodeFault?_group_nil]
  · have hdepth : (group "or" filters).depth ≤ limits.maxDepth ↔
        ∀ filter ∈ filters, filter.depth + 1 ≤ limits.maxDepth := by
      cases limits.maxDepth with
      | zero =>
        obtain ⟨filter, hfilter⟩ := List.exists_mem_of_ne_nil filters hne
        rw [depth_eq_foldr]
        exact ⟨fun hle => by omega, fun hall => by have := hall filter hfilter; omega⟩
      | succ levels =>
        rw [depth_le_add_one_iff]
        exact forall₂_congr fun filter _ => Nat.add_le_add_iff_right.symm
    rw [hdepth, nodeFault?_group_or limits.strictPaths hne]
    constructor
    · rintro ⟨hdepths, hcount, _, hnodes⟩
      exact ⟨hne, hcount, fun filter hfilter => ⟨hdepths filter hfilter, hnodes filter hfilter⟩⟩
    · rintro ⟨_, hcount, hall⟩
      exact ⟨fun filter hfilter => (hall filter hfilter).1, hcount, rfl,
        fun filter hfilter => (hall filter hfilter).2⟩

/-- The members of a union compile by themselves. -/
theorem exists_mapM_of_compile_group_or
    (hcompile : (group "or" filters).compile limits = .ok predicate) :
    ∃ members, filters.mapM (compile limits) = .ok members := by
  obtain ⟨_, hcount, hall⟩ := exists_compile_group_or_iff.mp ⟨predicate, hcompile⟩
  rw [← errorOf?_eq_none_iff, errorOf?_mapM, List.findSome?_eq_none_iff]
  intro filter hfilter
  obtain ⟨hdepth, hnodes⟩ := hall filter hfilter
  have hlt : filter.count < (group "or" filters).count := count_lt_of_mem hfilter
  exact errorOf?_eq_none_iff.mpr (exists_compile_iff.mpr ⟨by omega, by omega, hnodes⟩)

/-- In another order a union compiles as well. -/
theorem exists_compile_of_perm (hperm : others.Perm filters)
    (hcompile : (group "or" filters).compile limits = .ok predicate) :
    ∃ result, (group "or" others).compile limits = .ok result := by
  obtain ⟨hne, hcount, hall⟩ := exists_compile_group_or_iff.mp ⟨predicate, hcompile⟩
  refine exists_compile_group_or_iff.mpr ⟨?_, ?_, fun filter hfilter => ?_⟩
  · rintro rfl
    exact hne hperm.symm.eq_nil
  · have hsum : (others.map count).sum = (filters.map count).sum := (hperm.map count).sum_nat
    have hsame : (group "or" others).count = (group "or" filters).count := by
      rw [count_eq_sum, count_eq_sum]
      exact congrArg (· + 1) hsum
    rwa [hsame]
  · exact hall filter (hperm.mem_iff.mp hfilter)

/-! ## What unions mean -/

/-- A union means what its members come to under `or`. -/
theorem meaning_group_or (hne : filters ≠ []) :
    (group "or" filters).meaning record = Connective.or.combine (filters.map (meaning record)) := by
  have hgrouping : (group "or" filters).isGrouping = true :=
    isGrouping_iff.mpr ⟨hne, rfl, rfl, rfl⟩
  rw [meaning_of_isGrouping hgrouping rfl]
  exact (reads record).value_or filters {}

/-- A record matches a union if some member is true of it, or if no member has a condition. -/
theorem accepts_group_or_iff_exists
    (hcompile : (group "or" filters).compile limits = .ok predicate) (record : Record) :
    predicate.accepts record = true ↔
      (∃ filter ∈ filters, filter.meaning record = some true) ∨
        ∀ filter ∈ filters, filter.meaning record = none := by
  obtain ⟨hne, _⟩ := exists_compile_group_or_iff.mp ⟨predicate, hcompile⟩
  have hgetD : ∀ a : Option Bool, a.getD true = true ↔ a = some true ∨ a = none := by
    rintro (_ | _ | _) <;> simp
  rw [accepts_eq_meaning hcompile, meaning_group_or hne, hgetD, Connective.combine_or_eq_true_iff,
    Connective.combine_eq_none_iff, List.mem_map, List.forall_mem_map]

/-- A filter that is compiled by itself is true of a record if it has a condition and the record
matches, and has no truth if it has no condition. -/
theorem meaning_iff_of_compile (hcompile : filter.compile limits = .ok predicate) :
    (filter.meaning record = some true ↔
        predicate.isMatchAll = false ∧ predicate.accepts record = true) ∧
      (filter.meaning record = none ↔ predicate.isMatchAll = true) := by
  have hnone : filter.meaning record = none ↔ predicate.isMatchAll = true := by
    rw [← value_eq_meaning hcompile]
    exact Expr.value_eq_none_iff predicate.expr
  refine ⟨?_, hnone⟩
  rw [accepts_eq_meaning hcompile, ← Bool.not_eq_true, ← hnone]
  rcases filter.meaning record with _ | _ | _ <;> simp

/-- A union matches exactly the records that match some member by itself which has a condition, or
every record if no member has one. Its members compile whenever it does. The order of the members
makes no difference, and neither does it how often one is repeated, under whatever limits. -/
theorem accepts_group_or_iff (hcompile : (group "or" filters).compile limits = .ok predicate) :
    (∃ members, filters.mapM (compile limits) = .ok members ∧ ∀ record,
      predicate.accepts record = true ↔
        (∃ member ∈ members, member.isMatchAll = false ∧ member.accepts record = true) ∨
          ∀ member ∈ members, member.isMatchAll = true) ∧
    (∀ others : List Filter, others.Perm filters →
      ∃ result, (group "or" others).compile limits = .ok result ∧
        ∀ record, result.accepts record = predicate.accepts record) ∧
    (∀ (others : List Filter) (bounds : Limits) (result : Predicate),
      (∀ filter, filter ∈ others ↔ filter ∈ filters) →
      (group "or" others).compile bounds = .ok result →
      ∀ record, result.accepts record = predicate.accepts record) := by
  have hsame : ∀ (others : List Filter) (bounds : Limits) (result : Predicate),
      (∀ filter, filter ∈ others ↔ filter ∈ filters) →
      (group "or" others).compile bounds = .ok result →
      ∀ record, result.accepts record = predicate.accepts record := by
    intro others bounds result hmem hresult record
    rw [Bool.eq_iff_iff, accepts_group_or_iff_exists hresult,
      accepts_group_or_iff_exists hcompile]
    simp only [hmem]
  refine ⟨?_, fun others hperm => ?_, hsame⟩
  · obtain ⟨members, hmembers⟩ := exists_mapM_of_compile_group_or hcompile
    refine ⟨members, hmembers, fun record => ?_⟩
    rw [accepts_group_or_iff_exists hcompile]
    exact or_congr (exists_mem_iff_of_mapM hmembers fun _ _ hown => (meaning_iff_of_compile hown).1)
      (forall_mem_iff_of_mapM hmembers fun _ _ hown => (meaning_iff_of_compile hown).2)
  · obtain ⟨result, hresult⟩ := exists_compile_of_perm hperm hcompile
    exact ⟨result, hresult, hsame others limits result (fun _ => hperm.mem_iff) hresult⟩

/-- A member with an `or` behind another child, one with a condition of its own over a child, and
one without any condition. In another order, and one of them twice, they select the same records. -/
theorem accepts_group_or_iff_late_or :
    let late := group "and" [leaf "b" "eq" |>.withValue "1",
      group "or" [leaf "c" "isnull", leaf "d" "gt" |>.withValue "2"]]
    let own := leaf "f" "isnotnull" |>.withConnective "or" |>.withChild (leaf "d" "isnull")
    let idle := leaf "e" "eq"
    ∃ predicate other members, (group "or" [late, own, idle]).compile {} = .ok predicate ∧
      (group "or" [idle, late, own, late]).compile {} = .ok other ∧
      [late, own, idle].mapM (compile {}) = .ok members ∧
      members.map Predicate.isMatchAll = [false, false, true] ∧
      ∀ record, other.accepts record = predicate.accepts record ∧
        (predicate.accepts record = true ↔
          (∃ member ∈ members, member.isMatchAll = false ∧ member.accepts record = true) ∨
            ∀ member ∈ members, member.isMatchAll = true) := by
  intro late own idle
  obtain ⟨predicate, hcompile⟩ : ∃ predicate,
    (group "or" [late, own, idle]).compile {} = .ok predicate := ⟨_, rfl⟩
  obtain ⟨other, hother⟩ : ∃ other,
    (group "or" [idle, late, own, late]).compile {} = .ok other := ⟨_, rfl⟩
  obtain ⟨⟨members, hmembers, haccepts⟩, _, hsame⟩ := accepts_group_or_iff hcompile
  have hmem : ∀ filter, filter ∈ [idle, late, own, late] ↔ filter ∈ [late, own, idle] := by
    intro filter
    simp only [List.mem_cons, List.not_mem_nil, or_false]
    tauto
  have hidle : members.map Predicate.isMatchAll = [false, false, true] := by
    obtain rfl := Except.ok.inj hmembers
    rfl
  exact ⟨predicate, other, members, hcompile, hother, hmembers, hidle, fun record =>
    ⟨hsame _ {} other hmem hother record, haccepts record⟩⟩

end RecordQuery.Filter
