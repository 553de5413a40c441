import RecordQuery.Proofs.Precedence

/-!
# Looser limits

Limits only keep requests out. They do not reach the slots, the conditions or the order of what is
compiled, so a query that is accepted under some limits is carried out in the same way under any
looser ones.
-/

namespace RecordQuery

/-- Limits that allow whatever others allow: every bound is at least as high, and fields have to be
paths only if they had to before. -/
structure Limits.Loosens (looser limits : Limits) : Prop where
  depth_le : limits.maxDepth ≤ looser.maxDepth
  nodes_le : limits.maxNodes ≤ looser.maxNodes
  keys_le : limits.maxKeys ≤ looser.maxKeys
  strict_of_strict : looser.strictPaths = true → limits.strictPaths = true

variable {limits looser : Limits} {strict : Bool}

/-! ## Filters -/

namespace Filter

variable {loose : Bool} {filter : Filter}

/-- An operator that is read is also read if fields need not be paths. -/
theorem readOperator_of_loose (hstrict : loose = true → strict = true) {op : Operator}
    (hread : readOperator strict filter = .ok op) : readOperator loose filter = .ok op := by
  obtain ⟨hfield, hpath, hop⟩ := readOperator_eq_ok hread
  cases loose with
  | false => rwa [readOperator_false hfield]
  | true =>
    obtain ⟨path, hpath⟩ := hpath (hstrict rfl)
    rw [readOperator_true hfield, hpath]
    exact hop

/-- The condition of a node is the same if fields need not be paths. -/
theorem ownCondition_of_loose (hstrict : loose = true → strict = true) {slot : Nat}
    {condition : Option Condition} (hown : ownCondition strict filter slot = .ok condition) :
    ownCondition loose filter slot = .ok condition := by
  unfold ownCondition
  rcases ownCondition_eq_ok hown with ⟨hgrouping, rfl⟩ | ⟨op, hread, rfl⟩
  · exact if_pos hgrouping
  · have hfield := (readOperator_eq_ok hread).1
    have hgrouping : ¬ filter.isGrouping = true := by simp [isGrouping, hfield]
    rw [if_neg hgrouping, readOperator_of_loose hstrict hread]
    rfl

/-- A filter is compiled to the same expression if fields need not be paths. -/
theorem compileFrom_of_loose (hstrict : loose = true → strict = true) {slot next : Nat}
    {expr : Expr} (hcompile : compileFrom strict filter slot = .ok (expr, next)) :
    compileFrom loose filter slot = .ok (expr, next) := by
  rw [compileFrom_next hcompile]
  refine (compileFrom_ok_induction
    (P := fun filter slot expr => compileFrom loose filter slot = .ok (expr, slot + filter.count))
    (Q := fun filters slot exprs =>
      compileAllFrom loose filters slot = .ok (exprs, slot + (filters.map count).sum))
    ?leaf ?group ?nil ?cons hcompile).1
  case leaf =>
    intro filter slot condition hchildren hown
    rw [compileFrom_of_children_eq_nil hchildren, ownCondition_of_loose hstrict hown,
      count_eq_sum, hchildren]
    rfl
  case group =>
    intro filter slot condition connective exprs hchildren hown hconnective hexprs
    have hnext : slot + filter.count = slot + 1 + (filter.children.map count).sum := by
      rw [count_eq_sum]
      omega
    rw [compileFrom_of_children_ne_nil hchildren, ownCondition_of_loose hstrict hown, hconnective,
      hnext]
    simp only [bind, Except.bind, hexprs]
    rfl
  case nil => intro slot; rfl
  case cons =>
    intro filter filters slot expr exprs hfirst hrest
    rw [compileAllFrom, List.map_cons, List.sum_cons, ← Nat.add_assoc]
    simp only [bind, Except.bind, hfirst, hrest]
    rfl

/-- A filter that is small enough for some limits is so for looser ones. -/
theorem checkSize_of_loosens (hloosens : looser.Loosens limits)
    (hsize : filter.checkSize limits = .ok ()) : filter.checkSize looser = .ok () := by
  have hdepth := hloosens.depth_le
  have hnodes := hloosens.nodes_le
  unfold checkSize at hsize ⊢
  split at hsize
  · cases hsize
  · split at hsize
    · cases hsize
    · rw [if_neg (by omega), if_neg (by omega)]

/-- A filter is compiled to the same predicate under looser limits. -/
theorem compile_of_loosens (hloosens : looser.Loosens limits) {predicate : Predicate}
    (hcompile : filter.compile limits = .ok predicate) :
    filter.compile looser = .ok predicate := by
  obtain ⟨hsize, next, hroot, hparameters⟩ := compile_eq_ok hcompile
  have hloose := compileFrom_of_loose hloosens.strict_of_strict hroot
  rw [compile, checkSize_of_loosens hloosens hsize, ← hparameters]
  simp only [bind, Except.bind, hloose]
  rfl

end Filter

/-! ## Sort keys -/

/-- Nothing is wrong with a sort key that is valid where fields have to be paths. -/
theorem KeyRequest.fault?_of_loose {loose : Bool} (hstrict : loose = true → strict = true)
    {request : KeyRequest} (hfault : request.fault? strict = none) :
    request.fault? loose = none := by
  obtain ⟨hfield, hpath, hdirection⟩ := fault?_eq_none_iff.mp hfault
  exact fault?_eq_none_iff.mpr ⟨hfield, fun hloose => hpath (hstrict hloose), hdirection⟩

/-- Sort keys have the same plan under looser limits. -/
theorem SortPlan.build_of_loosens (hloosens : looser.Loosens limits) {requests : List KeyRequest}
    {plan : SortPlan} (hbuild : build limits requests = .ok plan) :
    build looser requests = .ok plan := by
  obtain ⟨hfault, hgives⟩ := build_eq_ok_iff.mp hbuild
  obtain ⟨hlength, hrequests⟩ := firstFault?_eq_none_iff.mp hfault
  refine build_eq_ok_iff.mpr ⟨firstFault?_eq_none_iff.mpr ⟨?_, ?_⟩, hgives⟩
  · exact hlength.trans hloosens.keys_le
  · exact fun request hrequest =>
      KeyRequest.fault?_of_loose hloosens.strict_of_strict (hrequests request hrequest)

/-! ## Queries -/

/-- A fault that lies with the request does not have the code of one that lies with a record. -/
theorem Fault.code_ne_of_isClientFault {fault : Fault} (hclient : fault.isClientFault = true) :
    fault.code ≠ "QUERY_RECORD" := by
  cases fault with
  | configuration | record => cases hclient
  | _ => simp [code]

namespace Query

variable {α : Type} {query : Query} {sorter : Sorter} {view : View α} {items : List α}

/-- The filter of a query has the same predicate under looser limits. -/
theorem compileFilter_of_loosens (hloosens : looser.Loosens limits) {predicate : Option Predicate}
    (hpredicate : query.compileFilter limits = .ok predicate) :
    query.compileFilter looser = .ok predicate := by
  unfold compileFilter at hpredicate ⊢
  split at hpredicate
  · exact hpredicate
  · obtain ⟨compiled, hcompile, rfl⟩ := map_eq_ok_iff.mp hpredicate
    exact map_eq_ok_iff.mpr ⟨compiled, Filter.compile_of_loosens hloosens hcompile, rfl⟩

/-- The sort keys of a query have the same plan under looser limits. -/
theorem compileKeys_of_loosens (hloosens : looser.Loosens limits) {plan : SortPlan}
    (hplan : query.compileKeys limits = .ok plan) : query.compileKeys looser = .ok plan := by
  unfold compileKeys at hplan ⊢
  split at hplan
  · exact hplan
  · exact SortPlan.build_of_loosens hloosens hplan

/-- A query that compiles ends in the same way under looser limits. -/
theorem apply_eq_of_loosens (hloosens : looser.Loosens limits) {predicate : Option Predicate}
    {plan : SortPlan} (hpredicate : query.compileFilter limits = .ok predicate)
    (hplan : query.compileKeys limits = .ok plan) (sorter : Sorter) (view : View α)
    (items : List α) : query.apply sorter looser view items =
      query.apply sorter limits view items := by
  rw [apply_of_compile hpredicate hplan, apply_of_compile
    (compileFilter_of_loosens hloosens hpredicate) (compileKeys_of_loosens hloosens hplan)]

/-- A query that fails for a record has been compiled before. -/
theorem exists_compile_of_code {fault : Fault}
    (hfault : query.apply sorter limits view items = .error (.fault fault))
    (hcode : fault.code = "QUERY_RECORD") :
    (∃ predicate, query.compileFilter limits = .ok predicate) ∧
      ∃ plan, query.compileKeys limits = .ok plan := by
  cases hpredicate : query.compileFilter limits with
  | error first =>
    rw [apply_eq_error_of_compileFilter hpredicate] at hfault
    cases hfault
    exact absurd hcode (Fault.code_ne_of_isClientFault (isClientFault_of_compile (.inl hpredicate)))
  | ok predicate =>
    cases hplan : query.compileKeys limits with
    | error first =>
      rw [apply_eq_error_of_compileKeys hpredicate hplan] at hfault
      cases hfault
      exact absurd hcode (Fault.code_ne_of_isClientFault (isClientFault_of_compile (.inr hplan)))
    | ok plan => exact ⟨⟨predicate, rfl⟩, plan, rfl⟩

/-- Whatever succeeds under some limits succeeds with the same result under looser ones: the filter
with its expression and parameters, the sort keys with their plan, and the query with its answer. A
query that fails for a record does so under looser limits, and for the same reason. -/
theorem apply_of_loosens (hloosens : looser.Loosens limits) (query : Query) :
    (∀ predicate, query.compileFilter limits = .ok predicate →
      query.compileFilter looser = .ok predicate) ∧
    (∀ plan, query.compileKeys limits = .ok plan → query.compileKeys looser = .ok plan) ∧
    ∀ {α : Type} (sorter : Sorter) (view : View α) (items : List α),
      (∀ answer, query.apply sorter limits view items = .ok answer →
        query.apply sorter looser view items = .ok answer) ∧
      ∀ fault, query.apply sorter limits view items = .error (.fault fault) →
        fault.code = "QUERY_RECORD" →
        query.apply sorter looser view items = .error (.fault fault) := by
  refine ⟨fun _ => compileFilter_of_loosens hloosens, fun _ => compileKeys_of_loosens hloosens,
    fun sorter view items => ⟨fun answer hanswer => ?_, fun fault hfault hcode => ?_⟩⟩
  · obtain ⟨_, _, _, hpredicate, hplan, _⟩ := apply_eq_ok hanswer
    rw [apply_eq_of_loosens hloosens hpredicate hplan, hanswer]
  · obtain ⟨⟨_, hpredicate⟩, _, hplan⟩ := exists_compile_of_code hfault hcode
    rw [apply_eq_of_loosens hloosens hpredicate hplan, hfault]

/-- A query that takes up all of its limits, on a collection that can be viewed and on one that
cannot. The looser limits do not ask for paths. -/
theorem apply_of_loosens_tight :
    let tight : Limits := { maxDepth := 1, maxNodes := 1, maxKeys := 1 }
    let loose : Limits := { maxDepth := 9, maxNodes := 1, maxKeys := 2, strictPaths := false }
    let view : View (Option Record) := fun item => item.elim (.error "no record") .ok
    let query : Query :=
      { filter := some (.leaf "ages[0]" "isnull"), keys := some [.along .descending "name"] }
    loose.Loosens tight ∧
      (∃ predicate, query.compileFilter tight = .ok predicate ∧
        query.compileFilter loose = .ok predicate) ∧
      (∃ plan, query.compileKeys tight = .ok plan ∧ query.compileKeys loose = .ok plan) ∧
      (∃ answer, query.apply .merging tight view [some .null, some (.object [])] = .ok answer ∧
        query.apply .merging loose view [some .null, some (.object [])] = .ok answer) ∧
      ∃ fault, query.apply .merging tight view [some .null, none] = .error (.fault fault) ∧
        fault.code = "QUERY_RECORD" ∧
        query.apply .merging loose view [some .null, none] = .error (.fault fault) := by
  intro tight loose view query
  have hloosens : loose.Loosens tight := ⟨by decide, by decide, by decide, by decide⟩
  obtain ⟨hfilter, hkeys, hanswers⟩ := apply_of_loosens hloosens query
  obtain ⟨predicate, hpredicate⟩ : ∃ predicate, query.compileFilter tight = .ok predicate :=
    ⟨_, rfl⟩
  obtain ⟨plan, hplan⟩ : ∃ plan, query.compileKeys tight = .ok plan := ⟨_, rfl⟩
  obtain ⟨answer, hanswer⟩ : ∃ answer,
    query.apply .merging tight view [some .null, some (.object [])] = .ok answer := ⟨_, rfl⟩
  obtain ⟨fault, hfault, hcode⟩ : ∃ fault, query.apply .merging tight view [some .null, none] =
    .error (.fault fault) ∧ fault.code = "QUERY_RECORD" := ⟨_, rfl, rfl⟩
  exact ⟨hloosens, ⟨predicate, hpredicate, hfilter predicate hpredicate⟩,
    ⟨plan, hplan, hkeys plan hplan⟩, ⟨answer, hanswer, (hanswers .merging view _).1 answer hanswer⟩,
    fault, hfault, hcode, (hanswers .merging view _).2 fault hfault hcode⟩

end Query

end RecordQuery
