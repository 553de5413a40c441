import RecordQuery.Proofs.Answers
import RecordQuery.Proofs.Conditionless
import RecordQuery.Proofs.KeyFaults
import RecordQuery.Proofs.KeyOrder

/-!
# Which fault a query ends with

A query fails for its filter, or else for its sort keys, or else for the first item that cannot be
viewed. Items are viewed only if the query asks something of them, a condition or an order, and a
query that is at fault itself never gets so far.
-/

namespace RecordQuery

variable {α : Type}

/-! ## Faults of requests lie with the request -/

/-- A fault that is found in a filter lies with the request. -/
theorem Filter.isClientFault_of_firstFault? {limits : Limits} {filter : Filter} {fault : Fault}
    (hfault : filter.firstFault? limits = some fault) : fault.isClientFault = true := by
  have hnode : ∀ node : Filter, node.nodeFault? limits.strictPaths = some fault →
      fault.isClientFault = true := by
    intro node hnode
    rw [nodeFault?, Option.or_eq_some_iff] at hnode
    rcases hnode with hcondition | ⟨_, hconnective⟩
    · unfold conditionFault? at hcondition
      split_ifs at hcondition <;> cases hcondition <;> rfl
    · unfold connectiveFault? at hconnective
      split at hconnective
      · cases hconnective
      · split at hconnective
        · cases hconnective
          rfl
        · split_ifs at hconnective
          cases hconnective
          rfl
  unfold firstFault? at hfault
  split_ifs at hfault
  · cases hfault
    rfl
  · cases hfault
    rfl
  · obtain ⟨node, _, hsome⟩ := List.exists_of_findSome?_eq_some hfault
    exact hnode node hsome

/-- A fault that is found in sort keys lies with the request. -/
theorem SortPlan.isClientFault_of_firstFault? {limits : Limits} {requests : List KeyRequest}
    {fault : Fault} (hfault : firstFault? limits requests = some fault) :
    fault.isClientFault = true := by
  unfold firstFault? at hfault
  split_ifs at hfault
  · cases hfault
    rfl
  · obtain ⟨request, _, hsome⟩ := List.exists_of_findSome?_eq_some hfault
    unfold KeyRequest.fault? at hsome
    split_ifs at hsome <;> cases hsome <;> rfl

/-! ## Items that cannot be viewed -/

namespace View

/-- The fault of the first item that cannot be viewed. -/
def firstFault? (view : View α) (items : List α) : Option Fault :=
  items.findSome? fun item => errorOf? (view.record item)

variable {view : View α} {items : List α}

/-- The record of an item is missing for the reason for which the item cannot be viewed. -/
theorem errorOf?_record (view : View α) (item : α) :
    errorOf? (view.record item) = (errorOf? (view item)).map Fault.record := by
  unfold record
  cases view item <;> rfl

/-- There is no such fault exactly if every item can be viewed. -/
theorem firstFault?_eq_none_iff :
    view.firstFault? items = none ↔ ∀ item ∈ items, view.Shows item := by
  rw [firstFault?, List.findSome?_eq_none_iff]
  refine forall₂_congr fun item _ => ?_
  rw [errorOf?_record, Option.map_eq_none_iff, errorOf?_eq_none_iff]
  rfl

/-- There is such a fault exactly if some item cannot be viewed. -/
theorem firstFault?_ne_none_iff :
    view.firstFault? items ≠ none ↔ ∃ item ∈ items, ¬ view.Shows item := by
  rw [Ne, firstFault?_eq_none_iff]
  push Not
  rfl

/-- Such a fault lies with a record. -/
theorem exists_of_firstFault? {fault : Fault} (hfault : view.firstFault? items = some fault) :
    ∃ reason, fault = .record reason := by
  obtain ⟨item, _, hsome⟩ := List.exists_of_findSome?_eq_some hfault
  rw [errorOf?_record] at hsome
  obtain ⟨reason, _, hreason⟩ := Option.map_eq_some_iff.mp hsome
  exact ⟨reason, hreason.symm⟩

/-- Selecting fails for the first item that cannot be viewed. -/
theorem errorOf?_select (view : View α) (predicate : Predicate) (items : List α) :
    errorOf? (view.select predicate items) = view.firstFault? items := by
  induction items with
  | nil => rfl
  | cons item items ih =>
    have hrest : ∀ record, view.record item = .ok record →
        errorOf? (view.select predicate items >>= fun kept =>
          pure (if predicate.accepts record then item :: kept else kept)) =
            view.firstFault? items := by
      intro record _
      rw [errorOf?_bind_of_ok fun _ _ => rfl, ih]
    rw [select, errorOf?_bind hrest, firstFault?, firstFault?, List.findSome?_cons]
    cases errorOf? (view.record item) <;> rfl

/-- Ordering by a plan with keys fails for the first item that cannot be viewed. -/
theorem faultOf?_arrange (sorter : Sorter) (view : View α) (plan : SortPlan) (items : List α) :
    faultOf? (view.arrange sorter plan items) =
      if plan.isIdentity then none else view.firstFault? items := by
  have hsort : ∀ viewed : List (Record × α),
      faultOf? ((plan.sort sorter (·.1) viewed).map (List.map (·.2))) = none := by
    intro viewed
    rw [faultOf?_map, SortPlan.faultOf?_sort]
  unfold arrange
  split
  · rfl
  · rw [faultOf?_bind_of_none fun viewed _ => hsort viewed, errorOf?_mapM, firstFault?]
    simp only [errorOf?_map]

/-- Where ordering breaks down, the items do not stand in a total order. -/
theorem not_transCmp_of_arrange {sorter : Sorter} {plan : SortPlan}
    (harrange : view.arrange sorter plan items = .error .breakdown) :
    ¬ Std.TransCmp fun i j => SortPlan.compareBy plan.keys (view.recordOrNull (items.get i))
      (view.recordOrNull (items.get j)) := by
  intro htrans
  obtain ⟨sorted, hsort⟩ := plan.exists_sort sorter htrans
  have hfault := view.faultOf?_arrange sorter plan items
  rw [harrange] at hfault
  split at hfault
  · next hidentity =>
    rw [arrange, if_pos hidentity] at harrange
    cases harrange
  · have hshows := firstFault?_eq_none_iff.mp hfault.symm
    rw [arrange_eq_sort hshows, hsort] at harrange
    cases harrange

/-- Narrowing items down fails for the first item that cannot be viewed, if the predicate has a
condition. -/
theorem errorOf?_narrow (view : View α) (predicate : Option Predicate) (items : List α) :
    errorOf? (view.narrow predicate items) =
      if predicate.any (fun predicate => !predicate.isMatchAll) then view.firstFault? items
      else none := by
  unfold narrow
  cases predicate with
  | none => rfl
  | some predicate =>
    cases hmatchAll : predicate.isMatchAll with
    | true => simp [hmatchAll, errorOf?]
    | false => simpa [hmatchAll] using view.errorOf?_select predicate items

/-- Narrowing items down fails for a record only. -/
theorem exists_of_narrow {predicate : Option Predicate} {fault : Fault}
    (hnarrow : view.narrow predicate items = .error fault) : ∃ reason, fault = .record reason := by
  rw [← errorOf?_eq_some_iff, errorOf?_narrow] at hnarrow
  split at hnarrow
  · exact exists_of_firstFault? hnarrow
  · cases hnarrow

/-- Ordering fails for a record only. -/
theorem exists_of_arrange {sorter : Sorter} {plan : SortPlan} {fault : Fault}
    (harrange : view.arrange sorter plan items = .error (.fault fault)) :
    ∃ reason, fault = .record reason := by
  rw [← faultOf?_eq_some_iff, faultOf?_arrange] at harrange
  split at harrange
  · cases harrange
  · exact exists_of_firstFault? harrange

/-- Without a condition nothing is left out. -/
theorem narrow_eq_ok_of_any_eq_false {predicate : Option Predicate}
    (hunlooked : predicate.any (fun predicate => !predicate.isMatchAll) = false) :
    view.narrow predicate items = .ok items := by
  unfold narrow
  cases predicate with
  | none => rfl
  | some predicate =>
    rw [Option.any_some, Bool.not_eq_false'] at hunlooked
    exact if_pos hunlooked

end View

namespace Query

variable {limits : Limits} {query : Query} {predicate : Option Predicate} {plan : SortPlan}

/-- Some node of the query's filter forms a condition. -/
def HasCondition (query : Query) : Prop :=
  ∃ filter ∈ query.filter, ∃ node ∈ filter.flatten, node.hasCondition = true

/-- The query has a sort key. -/
def HasKey (query : Query) : Prop :=
  query.keys.getD [] ≠ []

instance (query : Query) : Decidable query.HasCondition :=
  inferInstanceAs (Decidable (∃ filter ∈ query.filter, _))

instance (query : Query) : Decidable query.HasKey :=
  inferInstanceAs (Decidable (_ ≠ _))

/-- The predicate of a query is looked at exactly if the filter has a condition. -/
theorem any_not_isMatchAll_iff (hpredicate : query.compileFilter limits = .ok predicate) :
    (predicate.any fun predicate => !predicate.isMatchAll) = true ↔ query.HasCondition := by
  unfold compileFilter at hpredicate
  unfold HasCondition
  cases hfilter : query.filter with
  | none =>
    rw [hfilter] at hpredicate
    rw [← pure_eq_ok_iff.mp hpredicate]
    simp
  | some filter =>
    rw [hfilter] at hpredicate
    obtain ⟨compiled, hcompile, rfl⟩ := map_eq_ok_iff.mp hpredicate
    have hmatchAll := Filter.isMatchAll_iff_of_compile hcompile
    rw [Option.any_some, Bool.not_eq_true', ← Bool.not_eq_true, hmatchAll]
    simp

/-- The plan of a query has keys exactly if the query has. -/
theorem isIdentity_eq_false_iff (hplan : query.compileKeys limits = .ok plan) :
    plan.isIdentity = false ↔ query.HasKey := by
  unfold compileKeys at hplan
  unfold HasKey
  cases hkeys : query.keys with
  | none =>
    rw [hkeys] at hplan
    rw [← pure_eq_ok_iff.mp hplan]
    simp [SortPlan.isIdentity]
  | some requests =>
    rw [hkeys] at hplan
    dsimp only [SortPlan.build] at hplan
    split at hplan
    · cases hplan
    · obtain ⟨built, hrequests, rfl⟩ := map_eq_ok_iff.mp hplan
      have hlength := (mapM_eq_ok_iff_forall₂.mp hrequests).length_eq
      rw [SortPlan.isIdentity, Option.getD_some, ← List.length_pos_iff, hlength]
      simp [List.length_pos_iff]

/-- A fault that is found in the filter or the sort keys of a query lies with the request. -/
theorem isClientFault_of_compile {fault : Fault}
    (hfault : query.compileFilter limits = .error fault ∨
      query.compileKeys limits = .error fault) : fault.isClientFault = true := by
  rcases hfault with hfilter | hkeys
  · unfold compileFilter at hfilter
    split at hfilter
    · cases hfilter
    · rw [← errorOf?_eq_some_iff, errorOf?_map, Filter.errorOf?_compile] at hfilter
      exact Filter.isClientFault_of_firstFault? hfilter
  · unfold compileKeys at hkeys
    split at hkeys
    · cases hkeys
    · rw [← errorOf?_eq_some_iff, SortPlan.errorOf?_build] at hkeys
      exact SortPlan.isClientFault_of_firstFault? hkeys

variable {sorter : Sorter} {view : View α} {items : List α}

/-- The fault of a query is that of its filter, or else of its sort keys, or else, if it has a
condition or a sort key, of the first item that cannot be viewed. -/
theorem faultOf?_apply (sorter : Sorter) (limits : Limits) (view : View α) (items : List α)
    (query : Query) : faultOf? (query.apply sorter limits view items) =
      (errorOf? (query.compileFilter limits)).or ((errorOf? (query.compileKeys limits)).or
        (if query.HasCondition ∨ query.HasKey then view.firstFault? items else none)) := by
  rw [apply_eq]
  refine faultOf?_bind fun predicate hpredicate => faultOf?_bind fun plan hplan => ?_
  have hany := any_not_isMatchAll_iff hpredicate
  have hkeys := isIdentity_eq_false_iff hplan
  by_cases hcondition : query.HasCondition
  · have hlooked := hany.mpr hcondition
    -- If every item could be viewed for its selection, the same holds of what has been kept.
    have hkept : ∀ kept, view.narrow predicate items = .ok kept →
        faultOf? (view.arrange sorter plan kept) = none := by
      intro kept hnarrow
      have herror : errorOf? (view.narrow predicate items) = none := by rw [hnarrow]; rfl
      rw [View.errorOf?_narrow, if_pos hlooked, View.firstFault?_eq_none_iff] at herror
      have hshows : ∀ item ∈ kept, view.Shows item := by
        intro item hitem
        rw [View.eq_filter_of_narrow hnarrow] at hitem
        exact herror item (List.mem_filter.mp hitem).1
      rw [View.faultOf?_arrange, View.firstFault?_eq_none_iff.mpr hshows, ite_self]
    rw [faultOf?_bind_of_none hkept, View.errorOf?_narrow, if_pos hlooked, if_pos (.inl hcondition)]
  · have hunlooked : (predicate.any fun predicate => !predicate.isMatchAll) = false :=
      Bool.eq_false_iff.mpr (mt hany.mp hcondition)
    have hnarrow : view.narrow predicate items = .ok items :=
      View.narrow_eq_ok_of_any_eq_false hunlooked
    have harrange : faultOf? (view.arrange sorter plan items) =
        if query.HasCondition ∨ query.HasKey then view.firstFault? items else none := by
      rw [View.faultOf?_arrange]
      cases hidentity : plan.isIdentity with
      | true =>
        have hkey : ¬ query.HasKey := by rw [← hkeys, hidentity]; simp
        simp [hcondition, hkey]
      | false => simp [hkeys.mp hidentity]
    rw [hnarrow]
    exact harrange

/-- The fault of a query that is not at fault itself: there is none, unless it has a condition or a
sort key, and otherwise it is that of the first item that cannot be viewed. -/
theorem faultOf?_apply_of_compile (hpredicate : query.compileFilter limits = .ok predicate)
    (hplan : query.compileKeys limits = .ok plan) (sorter : Sorter) (view : View α)
    (items : List α) : faultOf? (query.apply sorter limits view items) =
      if query.HasCondition ∨ plan.keys ≠ [] then view.firstFault? items else none := by
  have hkey : query.HasKey ↔ plan.keys ≠ [] := by
    rw [← isIdentity_eq_false_iff hplan, SortPlan.isIdentity, List.isEmpty_eq_false_iff]
  rw [faultOf?_apply, hpredicate, hplan]
  simp only [hkey]
  rfl

/-- A query that is not at fault itself ends without a fault exactly if every item can be viewed, or
it has neither a condition nor a sort key. -/
theorem faultOf?_apply_eq_none_iff (hpredicate : query.compileFilter limits = .ok predicate)
    (hplan : query.compileKeys limits = .ok plan) :
    faultOf? (query.apply sorter limits view items) = none ↔
      ¬ ((∃ item ∈ items, ¬ view.Shows item) ∧ (query.HasCondition ∨ plan.keys ≠ [])) := by
  rw [faultOf?_apply_of_compile hpredicate hplan, ← View.firstFault?_ne_none_iff]
  by_cases hasks : query.HasCondition ∨ plan.keys ≠ []
  · rw [if_pos hasks, and_iff_left hasks, not_not]
  · rw [if_neg hasks]
    exact iff_of_true rfl fun hboth => hasks hboth.2

/-- A query that is not at fault itself fails for the first item that cannot be viewed. -/
theorem code_eq_of_apply (hpredicate : query.compileFilter limits = .ok predicate)
    (hplan : query.compileKeys limits = .ok plan) {fault : Fault}
    (hfault : query.apply sorter limits view items = .error (.fault fault)) :
    fault.code = "QUERY_RECORD" ∧ view.firstFault? items = some fault := by
  rw [← faultOf?_eq_some_iff, faultOf?_apply_of_compile hpredicate hplan] at hfault
  split at hfault
  · obtain ⟨reason, rfl⟩ := View.exists_of_firstFault? hfault
    exact ⟨rfl, hfault⟩
  · cases hfault

/-- A query that is at fault itself ends with a fault that lies with the request. -/
theorem exists_isClientFault_of_compile {fault : Fault}
    (hfault : query.compileFilter limits = .error fault ∨
      query.compileKeys limits = .error fault) (sorter : Sorter) (view : View α) (items : List α) :
    ∃ first, query.apply sorter limits view items = .error (.fault first) ∧
      first.isClientFault = true := by
  cases hpredicate : query.compileFilter limits with
  | error first =>
    exact ⟨first, apply_eq_error_of_compileFilter hpredicate sorter view items,
      isClientFault_of_compile (.inl hpredicate)⟩
  | ok predicate =>
    have hkeys : query.compileKeys limits = .error fault :=
      hfault.resolve_left (by simp [hpredicate])
    exact ⟨fault, apply_eq_error_of_compileKeys hpredicate hkeys sorter view items,
      isClientFault_of_compile (.inr hkeys)⟩

/-- Without conditions and sort keys a query leaves every collection as it is. -/
theorem apply_eq_ok_of_not_hasCondition (hpredicate : query.compileFilter limits = .ok predicate)
    (hplan : query.compileKeys limits = .ok plan) (hcondition : ¬ query.HasCondition)
    (hkeys : plan.keys = []) (sorter : Sorter) (view : View α) (items : List α) :
    query.apply sorter limits view items = .ok items := by
  have hunlooked : (predicate.any fun predicate => !predicate.isMatchAll) = false :=
    Bool.eq_false_iff.mpr (mt (any_not_isMatchAll_iff hpredicate).mp hcondition)
  have hidentity : plan.isIdentity = true := by rw [SortPlan.isIdentity, hkeys]; rfl
  rw [apply_eq, hpredicate, hplan]
  refine bind_eq_ok_iff.mpr ⟨predicate, rfl, bind_eq_ok_iff.mpr ⟨plan, rfl, ?_⟩⟩
  refine bind_eq_ok_iff.mpr ⟨items, ?_, if_pos hidentity⟩
  rw [View.narrow_eq_ok_of_any_eq_false hunlooked]
  rfl

/-- A query that does not end with a fault has an answer, unless the items that it keeps do not
stand in a total order and the routine breaks down. -/
theorem exists_answer_or_breakdown (hpredicate : query.compileFilter limits = .ok predicate)
    (hplan : query.compileKeys limits = .ok plan)
    (hfault : faultOf? (query.apply sorter limits view items) = none) :
    ∃ kept, view.narrow predicate items = .ok kept ∧
      ((∃ answer, query.apply sorter limits view items = .ok answer) ∨
        query.apply sorter limits view items = .error .breakdown ∧
          ¬ Std.TransCmp fun i j => SortPlan.compareBy plan.keys (view.recordOrNull (kept.get i))
            (view.recordOrNull (kept.get j))) := by
  have happly := apply_of_compile hpredicate hplan sorter view items
  cases hnarrow : view.narrow predicate items with
  | error fault =>
    rw [happly, hnarrow] at hfault
    cases hfault
  | ok kept =>
    refine ⟨kept, rfl, (faultOf?_eq_none_iff.mp hfault).imp_right fun hbroken => ⟨hbroken, ?_⟩⟩
    rw [happly, hnarrow] at hbroken
    exact View.not_transCmp_of_arrange hbroken

end Query

end RecordQuery
