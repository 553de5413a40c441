import Mathlib.Data.List.Basic
import RecordQuery.Proofs.Outcome
import RecordQuery.Session

/-!
# Selecting and ordering

What selecting and ordering make of a collection, and when they succeed. Both look at items only
through their views, so they do the same to the positions of a collection as to the collection.
-/

namespace RecordQuery

variable {α β : Type}

/-- A view of other items, each of which stands for an item that is viewed. -/
def View.through (view : View α) (f : β → α) : View β :=
  fun item => view (f item)

/-- Whether an item can be viewed. -/
def View.Shows (view : View α) (item : α) : Prop :=
  ∃ record, view item = .ok record

namespace SortPlan

variable {sorter : Sorter} {plan : SortPlan} {view : α → Record} {items : List α}

/-- A plan without keys leaves every order as it is. -/
theorem sort_of_isIdentity (hidentity : plan.isIdentity = true) (view : α → Record)
    (items : List α) : plan.sort sorter view items = .ok items :=
  if_pos hidentity

/-- The positions in their new order are those that there are. -/
theorem perm_of_positions {count : Nat} {record : Fin count → Record}
    {positions : List (Fin count)} (hpositions : plan.positions sorter record = .ok positions) :
    positions.Perm (List.finRange count) := by
  unfold SortPlan.positions at hpositions
  split at hpositions
  · next horder =>
    obtain rfl := Except.ok.inj hpositions
    exact sorter.perm horder
  · cases hpositions

/-- Ordering keeps every item, whatever the order of the records is. -/
theorem perm_of_sort {sorted : List α} (hsort : plan.sort sorter view items = .ok sorted) :
    sorted.Perm items := by
  unfold sort at hsort
  split at hsort
  · obtain rfl := Except.ok.inj hsort
    exact .refl _
  · obtain ⟨positions, hpositions, rfl⟩ := map_eq_ok_iff.mp hsort
    conv_rhs => rw [← List.map_get_finRange items]
    exact (perm_of_positions hpositions).map items.get

/-- Items that stand in a total order can be put in order. -/
theorem exists_sort (sorter : Sorter)
    (htrans : Std.TransCmp fun i j =>
      compareBy plan.keys (view (items.get i)) (view (items.get j))) :
    ∃ sorted, plan.sort sorter view items = .ok sorted := by
  obtain ⟨positions, horder, _⟩ := sorter.stable htrans
  unfold sort SortPlan.positions
  split
  · exact ⟨items, rfl⟩
  · rw [horder]
    exact ⟨positions.map items.get, rfl⟩

/-- Ordering has no faults to report. -/
theorem faultOf?_sort : faultOf? (plan.sort sorter view items) = none := by
  unfold sort SortPlan.positions
  split
  · rfl
  · split <;> rfl

/-- Items are ordered as the values that stand at their positions. -/
theorem sort_of_get (hkeys : ¬ plan.isIdentity = true) {count : Nat} {get : Fin count → α}
    (hlength : count = items.length) (hget : ∀ i, items.get (i.cast hlength) = get i) :
    plan.sort sorter view items =
      (plan.positions sorter fun i => view (get i)).map (List.map get) := by
  subst hlength
  obtain rfl : items.get = get := funext hget
  exact if_neg hkeys

/-- Items are ordered as what they stand for. -/
theorem sort_map (sorter : Sorter) (plan : SortPlan) (view : α → Record) (f : β → α)
    (items : List β) : plan.sort sorter view (items.map f) =
      (plan.sort sorter (fun item => view (f item)) items).map (List.map f) := by
  by_cases hidentity : plan.isIdentity = true
  · rw [sort_of_isIdentity hidentity, sort_of_isIdentity hidentity]
    rfl
  · have hget : ∀ i, (items.map f).get (i.cast (List.length_map f).symm) = f (items.get i) :=
      fun i => by simp
    rw [sort_of_get hidentity _ hget, sort, if_neg hidentity]
    cases plan.positions sorter fun i => view (f (items.get i)) with
    | error failure => rfl
    | ok positions => simp [Except.map]

end SortPlan

namespace View

variable {sorter : Sorter} {view : View α} {item : α} {predicate : Predicate} {plan : SortPlan}
  {items : List α}

theorem record_eq_ok_iff {record : Record} :
    view.record item = .ok record ↔ view item = .ok record := by
  unfold View.record
  cases view item <;> simp [Except.mapError]

/-- An item has a record exactly if it can be viewed, namely its view. -/
theorem record_eq_ok {record : Record} :
    view.record item = .ok record ↔ view.Shows item ∧ record = view.recordOrNull item := by
  rw [record_eq_ok_iff, Shows, recordOrNull]
  cases view item <;> simp [eq_comm]

/-- Selecting succeeds exactly if every item can be viewed, and keeps those that match. -/
theorem select_eq_ok_iff {kept : List α} :
    view.select predicate items = .ok kept ↔
      (∀ item ∈ items, view.Shows item) ∧
        kept = items.filter fun item => predicate.accepts (view.recordOrNull item) := by
  induction items generalizing kept with
  | nil =>
    rw [select, pure_eq_ok_iff]
    simp [eq_comm]
  | cons item items ih =>
    rw [select, bind_eq_ok_iff, List.forall_mem_cons, List.filter_cons]
    constructor
    · rintro ⟨record, hrecord, hrest⟩
      obtain ⟨others, hothers, hkept⟩ := bind_eq_ok_iff.mp hrest
      obtain ⟨hshows, rfl⟩ := record_eq_ok.mp hrecord
      obtain ⟨hitems, rfl⟩ := ih.mp hothers
      exact ⟨⟨hshows, hitems⟩, (pure_eq_ok_iff.mp hkept).symm⟩
    · rintro ⟨⟨hshows, hitems⟩, rfl⟩
      refine ⟨view.recordOrNull item, record_eq_ok.mpr ⟨hshows, rfl⟩, ?_⟩
      exact bind_eq_ok_iff.mpr ⟨_, ih.mpr ⟨hitems, rfl⟩, rfl⟩

/-- Viewing succeeds exactly if every item can be viewed. -/
theorem mapM_record_eq_ok_iff {viewed : List (Record × α)} :
    (items.mapM fun item => (view.record item).map (·, item)) = .ok viewed ↔
      (∀ item ∈ items, view.Shows item) ∧
        viewed = items.map fun item => (view.recordOrNull item, item) := by
  refine mapM_eq_ok_iff fun item pair => ?_
  rw [map_eq_ok_iff]
  constructor
  · rintro ⟨record, hrecord, rfl⟩
    obtain ⟨hshows, rfl⟩ := record_eq_ok.mp hrecord
    exact ⟨hshows, rfl⟩
  · rintro ⟨hshows, rfl⟩
    exact ⟨_, record_eq_ok.mpr ⟨hshows, rfl⟩, rfl⟩

/-- Where every item can be viewed, a collection is put in the order of its records. -/
theorem arrange_eq_sort (hshows : ∀ item ∈ items, view.Shows item) :
    view.arrange sorter plan items = plan.sort sorter view.recordOrNull items := by
  unfold arrange
  split
  · next hidentity => exact (SortPlan.sort_of_isIdentity hidentity _ _).symm
  · rw [mapM_record_eq_ok_iff.mpr ⟨hshows, rfl⟩]
    have hsort := plan.sort_map sorter (·.1) (fun item => (view.recordOrNull item, item)) items
    simp only [reported, Except.mapError, bind, Except.bind, hsort]
    cases plan.sort sorter view.recordOrNull items with
    | error failure => rfl
    | ok sorted => simp [Except.map, Function.comp_def]

/-- Ordering succeeds exactly if the plan has no keys, or every item can be viewed, and the records
are put in order. -/
theorem arrange_eq_ok_iff {arranged : List α} :
    view.arrange sorter plan items = .ok arranged ↔
      (plan.isIdentity = true ∨ ∀ item ∈ items, view.Shows item) ∧
        plan.sort sorter view.recordOrNull items = .ok arranged := by
  by_cases hidentity : plan.isIdentity = true
  · rw [arrange, if_pos hidentity, SortPlan.sort_of_isIdentity hidentity]
    simp [hidentity, pure, Except.pure]
  · constructor
    · intro harrange
      have hviewed := harrange
      rw [arrange, if_neg hidentity] at hviewed
      obtain ⟨viewed, hviewed, _⟩ := bind_eq_ok_iff.mp hviewed
      obtain ⟨hshows, _⟩ := mapM_record_eq_ok_iff.mp (reported_eq_ok_iff.mp hviewed)
      exact ⟨.inr hshows, by rw [← arrange_eq_sort hshows, harrange]⟩
    · rintro ⟨hshows, hsort⟩
      rw [arrange_eq_sort (hshows.resolve_left hidentity), hsort]

section Through

variable (view) (f : β → α)

/-- Items are selected as what they stand for. -/
theorem select_map (predicate : Predicate) (items : List β) :
    view.select predicate (items.map f) =
      ((view.through f).select predicate items).map (List.map f) := by
  induction items with
  | nil => rfl
  | cons item items ih =>
    have hrecord : (view.through f).record item = view.record (f item) := rfl
    rw [List.map_cons, select, select, ih, hrecord]
    cases view.record (f item) with
    | error fault => rfl
    | ok record =>
      cases (view.through f).select predicate items with
      | error fault => rfl
      | ok kept =>
        cases haccepts : predicate.accepts record <;>
          simp [haccepts, bind, Except.bind, pure, Except.pure, Except.map]

/-- Items are put in order as what they stand for. -/
theorem arrange_map (plan : SortPlan) (items : List β) :
    view.arrange sorter plan (items.map f) =
      ((view.through f).arrange sorter plan items).map (List.map f) := by
  unfold arrange
  by_cases hidentity : plan.isIdentity = true
  · rw [if_pos hidentity, if_pos hidentity]
    rfl
  · rw [if_neg hidentity, if_neg hidentity, List.mapM_map]
    have hviewed : items.mapM ((fun item => (view.record item).map (·, item)) ∘ f) =
        (items.mapM fun item => ((view.through f).record item).map (·, item)).map
          (List.map fun pair => (pair.1, f pair.2)) := by
      refine mapM_eq_map (fun item => ?_) items
      have hrecord : (view.through f).record item = view.record (f item) := rfl
      rw [Function.comp_apply, hrecord]
      cases view.record (f item) <;> rfl
    rw [hviewed, reported_map]
    cases reported (items.mapM fun item => ((view.through f).record item).map (·, item)) with
    | error failure => rfl
    | ok viewed =>
      have hsort := plan.sort_map sorter (·.1) (fun pair : Record × β => (pair.1, f pair.2)) viewed
      simp only [Except.map, bind, Except.bind, hsort]
      cases plan.sort sorter (·.1) viewed <;> simp

end Through

end View

end RecordQuery
