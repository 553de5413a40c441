import RecordQuery.Proofs.Precedence
import RecordQuery.Proofs.Stability

/-!
# Laws of ordering

What putting items in order has to do with selecting some of them, with ordering them by one key
after the other, and with turning all directions round. The three laws have one reason: in whatever
way items come to stand as the keys say, and as they stood before where no key tells them apart, the
result is the same. The positions of a collection differ where its items may be equal, so this is
shown of positions.
-/

namespace RecordQuery

namespace SortPlan

section Items

variable {α : Type} {plan : SortPlan} {record : α → Record} {items : List α}

/-- Positions that stand so are those of the sorted items. -/
theorem map_get_eq_sorted (huniform : plan.Uniform (items.map record))
    {positions others : List (Fin items.length)} (hpositions : positions.Pairwise (· < ·))
    (hperm : others.Perm positions) (hothers : others.Pairwise fun i j =>
      Precedes plan.keys (record (items.get i)) (record (items.get j)) ∨
        Ties plan.keys (record (items.get i)) (record (items.get j)) ∧ i < j) :
    others.map items.get = plan.sorted record (positions.map items.get) := by
  rw [sorted_map]
  exact congrArg (List.map items.get) (eq_sorted_of_pairwise huniform.transCmp_get
    (fun _ _ => lt_asymm) hpositions hperm hothers)

/-! ## Selecting -/

/-- Ordering some of the items is leaving out the others afterwards. -/
theorem sorted_filter (huniform : plan.Uniform (items.map record)) (p : α → Bool) :
    plan.sorted record (items.filter p) = (plan.sorted record items).filter p := by
  have hlt := (List.pairwise_lt_finRange items.length).filter (p ∘ items.get)
  have hsorted := (pairwise_sorted_get huniform).filter (p ∘ items.get)
  have hfiltered := map_get_eq_sorted huniform hlt ((plan.sorted_perm _ _).filter _) hsorted
  rw [← List.filter_map, ← List.filter_map, ← sorted_eq_map_get, List.map_get_finRange] at hfiltered
  exact hfiltered.symm

/-! ## One key after the other -/

/-- Ordering by several keys is ordering by the later ones first, and then by the first one. -/
theorem sorted_cons {key : SortKey} {keys : List SortKey}
    (huniform : Uniform ⟨key :: keys⟩ (items.map record)) :
    sorted ⟨key :: keys⟩ record items = sorted ⟨[key]⟩ record (sorted ⟨keys⟩ record items) := by
  have hfirst : Uniform ⟨[key]⟩ (items.map record) := by
    intro other hother
    exact huniform other (by simpa using .inl (List.mem_singleton.mp hother))
  have hlater : Uniform ⟨keys⟩ (items.map record) := fun other hother =>
    huniform other (List.mem_cons_of_mem key hother)
  let later := sorted ⟨keys⟩ (fun i => record (items.get i)) (List.finRange items.length)
  have hlaterPerm : later.Perm (List.finRange items.length) := sorted_perm _ _ _
  have hnodup : later.Nodup := hlaterPerm.nodup_iff.mpr (List.nodup_finRange _)
  have hsorted := pairwise_sorted hfirst.transCmp_get hnodup (pairwise_sorted_get hlater)
  have hboth := map_get_eq_sorted huniform (List.pairwise_lt_finRange _)
    ((sorted_perm ⟨[key]⟩ _ later).trans hlaterPerm) (hsorted.imp fun {i j} hij => ?_)
  · rw [List.map_get_finRange, ← sorted_map, ← sorted_eq_map_get] at hboth
    exact hboth.symm
  · -- The first key decides, or else the later ones do, or else the position.
    simp only [Ties, List.forall_mem_cons, precedes_cons, not_precedes_nil, List.not_mem_nil,
      false_implies, implies_true, and_true, and_false, or_false] at hij ⊢
    tauto

/-! ## All directions turned round -/

/-- An item that stands in front of another one, with which it ties, stays in front of it. -/
theorem pair_sublist_sorted (huniform : plan.Uniform (items.map record)) {a b : α}
    (hties : Ties plan.keys (record a) (record b)) (hab : [a, b].Sublist items) :
    [a, b].Sublist (plan.sorted record items) := by
  have htrans := huniform.transCmp_get
  rw [← List.map_get_finRange items] at hab
  obtain ⟨pair, hpair, heq⟩ := List.sublist_map_iff.mp hab
  obtain ⟨i, j, rfl⟩ : ∃ i j, pair = [i, j] := List.length_eq_two.mp (by
    rw [← List.length_map items.get, ← heq]
    rfl)
  obtain ⟨rfl, rfl⟩ : a = items.get i ∧ b = items.get j := by simpa using heq
  have hlevel := compareBy_eq_eq_iff.mpr hties
  rw [sorted_eq_map_get]
  exact (Sorter.pair_sublist_mergeSort_of_eq hpair hlevel).map items.get

end Items

end SortPlan

/-- The other direction. -/
def Direction.opposite : Direction → Direction
  | ascending => descending
  | descending => ascending

/-- The key with the other direction. -/
def SortKey.opposite (key : SortKey) : SortKey :=
  { key with direction := key.direction.opposite }

/-- By a key with the other direction records stand the other way round. -/
theorem SortKey.compare_opposite (key : SortKey) (a b : Record) :
    key.opposite.compare a b = (key.compare a b).swap := by
  obtain ⟨field, direction⟩ := key
  cases direction with
  | ascending => rfl
  | descending => exact Ordering.swap_swap.symm

namespace SortPlan

/-- The plan with the other direction at every key. -/
def opposite (plan : SortPlan) : SortPlan where
  keys := plan.keys.map SortKey.opposite

/-- By several keys with the other direction records stand the other way round. -/
theorem compareBy_opposite (plan : SortPlan) (a b : Record) :
    compareBy plan.opposite.keys a b = (compareBy plan.keys a b).swap := by
  obtain ⟨keys⟩ := plan
  induction keys with
  | nil => rfl
  | cons key keys ih =>
    have hkeys : (⟨key :: keys⟩ : SortPlan).opposite.keys =
        key.opposite :: (⟨keys⟩ : SortPlan).opposite.keys := rfl
    rw [hkeys, compareBy, compareBy, key.compare_opposite, ih, Ordering.swap_then]

/-- No key tells records apart if none does with the other direction. -/
theorem ties_opposite (plan : SortPlan) (a b : Record) :
    Ties plan.opposite.keys a b ↔ Ties plan.keys a b := by
  rw [← compareBy_eq_eq_iff, ← compareBy_eq_eq_iff, compareBy_opposite, Ordering.swap_eq_eq]

variable {α : Type} {plan : SortPlan} {record : α → Record} {items : List α}

/-- Records that are uniform under keys are so whatever the directions are. -/
theorem Uniform.opposite {records : List Record} (huniform : plan.Uniform records) :
    plan.opposite.Uniform records := by
  intro key hkey
  obtain ⟨other, hother, rfl⟩ := List.mem_map.mp hkey
  exact huniform other hother

/-- Ordering with all directions turned round is ordering the reversed items, and reversing the
result. So items that tie are reversed twice. -/
theorem sorted_opposite (huniform : plan.Uniform (items.map record)) :
    plan.opposite.sorted record items = (plan.sorted record items.reverse).reverse := by
  have htrans := huniform.transCmp_get
  have hlt := List.pairwise_lt_finRange items.length
  have hnodup := List.nodup_reverse.mpr (List.nodup_finRange items.length)
  have hsorted := pairwise_sorted htrans hnodup (List.pairwise_reverse.mpr hlt)
  have hperm := (plan.sorted_perm (fun i => record (items.get i)) (List.finRange _).reverse).trans
    (List.reverse_perm _)
  have hreversed := map_get_eq_sorted huniform.opposite hlt ((List.reverse_perm _).trans hperm)
    ((List.pairwise_reverse.mpr hsorted).imp fun {i j} hij => ?_)
  · rw [List.map_reverse, ← sorted_map, List.map_reverse, List.map_get_finRange] at hreversed
    exact hreversed.symm
  · have hswap : compareBy plan.keys (record (items.get j)) (record (items.get i)) =
        (compareBy plan.keys (record (items.get i)) (record (items.get j))).swap := htrans.eq_swap
    rw [← compareBy_eq_lt_iff, ← compareBy_eq_eq_iff, hswap] at hij
    rwa [← compareBy_eq_lt_iff, ← compareBy_eq_eq_iff, compareBy_opposite]

end SortPlan

namespace View

variable {α : Type} {sorter : Sorter} {view : View α} {predicate : Predicate} {plan : SortPlan}
  {items : List α} {fault : Fault}

section Commuting

/-- Where all items can be viewed, and are uniform, those that match are ordered. -/
theorem select_bind_arrange_of_shows (hshows : ∀ item ∈ items, view.Shows item)
    (huniform : plan.Uniform (items.map view.recordOrNull)) :
    (reported (view.select predicate items) >>= view.arrange sorter plan) =
      .ok (plan.sorted view.recordOrNull
        (items.filter fun item => predicate.accepts (view.recordOrNull item))) := by
  refine bind_eq_ok_iff.mpr ⟨_, reported_eq_ok_iff.mpr (select_eq_ok_iff.mpr ⟨hshows, rfl⟩), ?_⟩
  refine arrange_eq_sorted (fun item hitem => hshows item (List.mem_filter.mp hitem).1) ?_
  exact huniform.of_subset (List.map_subset _ (List.filter_subset_self _))

/-- Where all items can be viewed, and are uniform, those that match may be told afterwards. -/
theorem arrange_bind_select_of_shows (hshows : ∀ item ∈ items, view.Shows item)
    (huniform : plan.Uniform (items.map view.recordOrNull)) :
    (view.arrange sorter plan items >>= reported ∘ view.select predicate) =
      .ok (plan.sorted view.recordOrNull
        (items.filter fun item => predicate.accepts (view.recordOrNull item))) := by
  refine bind_eq_ok_iff.mpr ⟨_, arrange_eq_sorted hshows huniform, reported_eq_ok_iff.mpr ?_⟩
  rw [SortPlan.sorted_filter huniform]
  exact select_eq_ok_iff.mpr
    ⟨fun item hitem => hshows item ((plan.sorted_perm _ _).mem_iff.mp hitem), rfl⟩

/-- Selecting before ordering fails for the first item that cannot be viewed. -/
theorem select_bind_arrange_of_firstFault? (hfault : view.firstFault? items = some fault) :
    (reported (view.select predicate items) >>= view.arrange sorter plan) =
      .error (.fault fault) := by
  have hselect : view.select predicate items = .error fault := by
    rw [← errorOf?_eq_some_iff, errorOf?_select, hfault]
  rw [hselect]
  rfl

/-- Selecting after ordering fails for the same item: a plan with keys finds it at once, and one
without keys leaves it where it is. -/
theorem arrange_bind_select_of_firstFault? (hfault : view.firstFault? items = some fault) :
    (view.arrange sorter plan items >>= reported ∘ view.select predicate) =
      .error (.fault fault) := by
  cases hidentity : plan.isIdentity with
  | true =>
    have harrange : view.arrange sorter plan items = .ok items := by
      rw [arrange, if_pos hidentity]
      rfl
    rw [harrange]
    refine reported_eq_fault_iff.mpr (errorOf?_eq_some_iff.mp ?_)
    exact (view.errorOf?_select predicate items).trans hfault
  | false =>
    have harrange : view.arrange sorter plan items = .error (.fault fault) := by
      rw [← faultOf?_eq_some_iff, faultOf?_arrange, hidentity]
      exact hfault
    rw [harrange]
    rfl

/-- Selecting items and ordering them may change places: both ways have the same outcome. It is an
answer if all items can be viewed, and otherwise the fault of the first one that cannot. An item
that cannot be viewed has no texts, so it does not count for what is uniform. -/
theorem select_arrange_comm (sorter : Sorter) (predicate : Predicate)
    (huniform : plan.Uniform (items.map view.recordOrNull)) :
    (view.arrange sorter plan items >>= reported ∘ view.select predicate) =
        (reported (view.select predicate items) >>= view.arrange sorter plan) ∧
      ((∀ item ∈ items, view.Shows item) → ∃ answer,
        (view.arrange sorter plan items >>= reported ∘ view.select predicate) = .ok answer) ∧
      ((∃ item ∈ items, ¬ view.Shows item) → ∃ fault, fault.code = "QUERY_RECORD" ∧
        view.firstFault? items = some fault ∧
        (view.arrange sorter plan items >>= reported ∘ view.select predicate) =
          .error (.fault fault)) := by
  refine ⟨?_, fun hshows => ⟨_, arrange_bind_select_of_shows hshows huniform⟩, ?_⟩
  · cases hfault : view.firstFault? items with
    | none =>
      have hshows := firstFault?_eq_none_iff.mp hfault
      rw [arrange_bind_select_of_shows hshows huniform,
        select_bind_arrange_of_shows hshows huniform]
    | some fault =>
      rw [arrange_bind_select_of_firstFault? hfault, select_bind_arrange_of_firstFault? hfault]
  · rintro ⟨item, hitem, hhidden⟩
    cases hfault : view.firstFault? items with
    | none => exact absurd (firstFault?_eq_none_iff.mp hfault item hitem) hhidden
    | some fault =>
      obtain ⟨reason, rfl⟩ := exists_of_firstFault? hfault
      exact ⟨.record reason, rfl, rfl, arrange_bind_select_of_firstFault? hfault⟩

/-- Of four items one does not match, and two are level under the key. An item that cannot be viewed
stops both ways. -/
theorem select_arrange_comm_level :
    let view : View (Option Record) := fun item => item.elim (.error "no record") .ok
    let predicate : Predicate := ⟨.leaf (some (.compare "n" .unequal 0)), ["2"]⟩
    let plan : SortPlan := ⟨[⟨"at", .descending⟩]⟩
    let item : Int → Json String → Option Record := fun n time =>
      some (.object [("n", .number (.integer n)), ("at", time)])
    let items := [item 1 (.string "2024-01-01T22:30:00Z"), item 2 .null,
      item 3 (.string "2024-01-02T00:30:00+02:00"), item 4 (.string "2024-01-05T00:00:00Z")]
    plan.Uniform (items.map view.recordOrNull) ∧
      (view.arrange .merging plan items >>= reported ∘ view.select predicate) =
        (reported (view.select predicate items) >>= view.arrange .merging plan) ∧
      (∃ answer,
        (view.arrange .merging plan items >>= reported ∘ view.select predicate) = .ok answer) ∧
      ∃ fault, fault.code = "QUERY_RECORD" ∧
        (view.arrange .merging plan (none :: items) >>= reported ∘ view.select predicate) =
          .error (.fault fault) := by
  intro view predicate plan item items
  have huniform : plan.Uniform (items.map view.recordOrNull) := by decide
  have hhidden : ¬ view.Shows none := by
    rintro ⟨record, hrecord⟩
    cases hrecord
  obtain ⟨hcomm, hanswer, _⟩ := select_arrange_comm .merging predicate huniform
  have hbroken : plan.Uniform ((none :: items).map view.recordOrNull) := by decide
  obtain ⟨_, _, hfails⟩ := select_arrange_comm .merging predicate hbroken
  obtain ⟨fault, hcode, _, hfault⟩ := hfails ⟨none, List.mem_cons_self, hhidden⟩
  exact ⟨huniform, hcomm, hanswer (by simp [items, item, View.Shows, view]), fault, hcode, hfault⟩

end Commuting

/-- Ordering by several keys is ordering by each of them alone, from the last one to the first. -/
theorem arrange_eq_foldlM (sorter : Sorter) (keys : List SortKey)
    (hshows : ∀ item ∈ items, view.Shows item)
    (huniform : SortPlan.Uniform ⟨keys⟩ (items.map view.recordOrNull)) :
    ∃ arranged, view.arrange sorter ⟨keys⟩ items = .ok arranged ∧
      keys.reverse.foldlM (fun arranged key => view.arrange sorter ⟨[key]⟩ arranged) items =
        .ok arranged := by
  refine ⟨_, arrange_eq_sorted hshows huniform, ?_⟩
  rw [List.foldlM_reverse]
  induction keys with
  | nil =>
    rw [SortPlan.sorted_of_isIdentity rfl]
    rfl
  | cons key keys ih =>
    have hlater : SortPlan.Uniform ⟨keys⟩ (items.map view.recordOrNull) := fun other hother =>
      huniform other (List.mem_cons_of_mem key hother)
    have hperm := SortPlan.sorted_perm ⟨keys⟩ view.recordOrNull items
    have hfirst : SortPlan.Uniform ⟨[key]⟩
        ((SortPlan.sorted ⟨keys⟩ view.recordOrNull items).map view.recordOrNull) := by
      intro other hother
      obtain rfl := List.mem_singleton.mp hother
      exact (huniform.of_subset (hperm.map view.recordOrNull).subset) other List.mem_cons_self
    rw [List.foldrM_cons, ih hlater, SortPlan.sorted_cons huniform]
    refine bind_eq_ok_iff.mpr ⟨_, rfl, arrange_eq_sorted (fun item hitem => ?_) hfirst⟩
    exact hshows item (hperm.mem_iff.mp hitem)

/-- The first key leaves two items level, and the second one, which is descending, parts them. -/
theorem arrange_eq_foldlM_two :
    let view : View Record := .ok
    let keys : List SortKey := [⟨"n", .ascending⟩, ⟨"at", .descending⟩]
    let item : Json String → Json String → Record := fun n time =>
      .object [("n", n), ("at", time)]
    let items := [item (.bool true) (.string "2024-01-01T22:30:00Z"), item .null .null,
      item (.bool true) (.string "2024-01-05T00:00:00+02:00"), item (.array []) (.bool false)]
    SortPlan.Uniform ⟨keys⟩ (items.map view.recordOrNull) ∧
      ∃ arranged, view.arrange .merging ⟨keys⟩ items = .ok arranged ∧
        keys.reverse.foldlM (fun arranged key => view.arrange .merging ⟨[key]⟩ arranged) items =
          .ok arranged := by
  intro view keys item items
  have hshows : ∀ item ∈ items, view.Shows item := fun item _ => ⟨item, rfl⟩
  have huniform : SortPlan.Uniform ⟨keys⟩ (items.map view.recordOrNull) := by decide
  exact ⟨huniform, arrange_eq_foldlM .merging keys hshows huniform⟩

/-- With all directions turned round, a plan puts items in the order in which it puts the reversed
items, read from the end. Items that no key tells apart still stand as they came. -/
theorem arrange_opposite (sorter : Sorter) (hshows : ∀ item ∈ items, view.Shows item)
    (huniform : plan.Uniform (items.map view.recordOrNull)) :
    ∃ arranged, view.arrange sorter plan items.reverse = .ok arranged ∧
      view.arrange sorter plan.opposite items = .ok arranged.reverse ∧
      ∀ a b, SortPlan.Ties plan.keys (view.recordOrNull a) (view.recordOrNull b) →
        [a, b].Sublist items → [a, b].Sublist arranged.reverse := by
  have hreversed : ∀ item ∈ items.reverse, view.Shows item := fun item hitem =>
    hshows item (List.mem_reverse.mp hitem)
  have huniformReversed : plan.Uniform (items.reverse.map view.recordOrNull) :=
    huniform.of_subset (List.map_subset _ fun item hitem => List.mem_reverse.mp hitem)
  refine ⟨_, arrange_eq_sorted hreversed huniformReversed, ?_⟩
  rw [← SortPlan.sorted_opposite huniform]
  refine ⟨arrange_eq_sorted hshows huniform.opposite, fun a b hties hab => ?_⟩
  exact SortPlan.pair_sublist_sorted huniform.opposite ((plan.ties_opposite _ _).mpr hties) hab

/-- The first and the last item name one instant, and keep their order either way. -/
theorem arrange_opposite_instant :
    let view : View Record := .ok
    let plan : SortPlan := ⟨[⟨"at", .ascending⟩]⟩
    let item : Json String → Record := fun time => .object [("at", time)]
    let early := item (.string "2024-01-01T22:30:00Z")
    let late := item (.string "2024-01-02T00:30:00+02:00")
    let items := [early, item .null, late]
    plan.Uniform (items.map view.recordOrNull) ∧
      ∃ arranged, view.arrange .merging plan items.reverse = .ok arranged ∧
        view.arrange .merging plan.opposite items = .ok arranged.reverse ∧
        [early, late].Sublist arranged.reverse := by
  intro view plan item early late items
  have hshows : ∀ item ∈ items, view.Shows item := fun item _ => ⟨item, rfl⟩
  have huniform : plan.Uniform (items.map view.recordOrNull) := by decide
  obtain ⟨arranged, hreversed, hopposite, hties⟩ := arrange_opposite .merging hshows huniform
  have hlevel : SortPlan.Ties plan.keys early late :=
    SortPlan.compareBy_eq_eq_iff.mp (by decide +kernel)
  have hpair : [early, late].Sublist items :=
    (List.sublist_cons_self (item .null) [late]).cons_cons early
  exact ⟨huniform, arranged, hreversed, hopposite, hties early late hlevel hpair⟩

end View

end RecordQuery
