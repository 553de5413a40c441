import Mathlib.Data.List.FinRange
import Mathlib.Data.List.Pairwise
import RecordQuery.Proofs.Collections
import RecordQuery.Proofs.KeyOrder

/-!
# Stable ordering

Items in the order of a plan stand as the first key says that tells them apart, and items that no
key tells apart stand as they came. To say this of items of which some may be equal, it is said of
their positions: positions are ordered as the items are, and they differ.
-/

namespace RecordQuery

section Lists

variable {α : Type} {R : α → α → Prop} {items : List α}

/-- Items that differ stand in the order of their places. -/
theorem pairwise_idxOf [BEq α] [LawfulBEq α] (hnodup : items.Nodup) :
    items.Pairwise fun a b => items.idxOf a < items.idxOf b := by
  refine List.pairwise_iff_getElem.mpr fun i j hi hj hlt => ?_
  rwa [hnodup.idxOf_getElem, hnodup.idxOf_getElem]

/-- Two different items stand in one of the two orders. -/
theorem rel_or_rel_of_pairwise (hitems : items.Pairwise R) {a b : α} (ha : a ∈ items)
    (hb : b ∈ items) (hne : a ≠ b) : R a b ∨ R b a := by
  have hsymm : Std.Symm fun a b => R a b ∨ R b a := ⟨fun _ _ => Or.symm⟩
  have hboth : items.Pairwise fun a b => R a b ∨ R b a := hitems.imp Or.inl
  exact hboth.forall ha hb hne

/-- Where a relation holds in one direction only, and from every item to those behind it, it tells
which of two items is in front. -/
theorem idxOf_lt_idxOf_iff [BEq α] [LawfulBEq α] (hasymm : ∀ a b, R a b → ¬ R b a)
    (hitems : items.Pairwise R) {a b : α} (ha : a ∈ items) (hb : b ∈ items) :
    items.idxOf a < items.idxOf b ↔ R a b := by
  have hirrefl : ∀ a, ¬ R a a := fun a hrel => hasymm a a hrel hrel
  by_cases hne : a = b
  · subst hne
    simpa using hirrefl a
  · have hnodup : items.Nodup := by
      refine hitems.imp ?_
      rintro a _ hrel rfl
      exact hirrefl a hrel
    have hplaces := pairwise_idxOf hnodup
    rcases rel_or_rel_of_pairwise (hplaces.and hitems) ha hb hne with ⟨hlt, hrel⟩ | ⟨hgt, hrel⟩
    · exact iff_of_true hlt hrel
    · exact iff_of_false hgt.le.not_gt (hasymm b a hrel)

end Lists

namespace SortPlan

section Items

variable {α β : Type} {plan : SortPlan}

/-- Items in the order of a plan, as merge sort gives them. -/
def sorted (plan : SortPlan) (record : α → Record) (items : List α) : List α :=
  items.mergeSort fun a b => compareBy plan.keys (record a) (record b) != .gt

theorem sorted_perm (plan : SortPlan) (record : α → Record) (items : List α) :
    (plan.sorted record items).Perm items :=
  List.mergeSort_perm items _

/-- A plan without keys leaves every order as it is. -/
theorem sorted_of_isIdentity (hidentity : plan.isIdentity = true) (record : α → Record)
    (items : List α) : plan.sorted record items = items := by
  have hkeys : plan.keys = [] := List.isEmpty_iff.mp hidentity
  refine List.mergeSort_of_pairwise (List.pairwise_of_forall fun a b => ?_)
  rw [hkeys]
  rfl

/-- Items are sorted as what they stand for. -/
theorem sorted_map (plan : SortPlan) (record : α → Record) (f : β → α) (items : List β) :
    plan.sorted record (items.map f) = (plan.sorted (fun item => record (f item)) items).map f := by
  unfold sorted
  symm
  apply List.map_mergeSort
  intros
  rfl

/-- Sorted items are those at the sorted positions. -/
theorem sorted_eq_map_get (plan : SortPlan) (record : α → Record) (items : List α) :
    plan.sorted record items =
      (plan.sorted (fun i => record (items.get i)) (List.finRange items.length)).map items.get := by
  conv_lhs => rw [← List.map_get_finRange items, sorted_map]

end Items

section Orders

variable {ι : Type} {plan : SortPlan} {record : ι → Record} {items others : List ι}
  {r : ι → ι → Prop} (htrans : Std.TransCmp fun i j => compareBy plan.keys (record i) (record j))

include htrans

/-- Sorted items stand as the first key says that tells them apart, and as they stood if no key
does. -/
theorem pairwise_sorted (hnodup : items.Nodup) (hitems : items.Pairwise r) :
    (plan.sorted record items).Pairwise fun i j =>
      Precedes plan.keys (record i) (record j) ∨ Ties plan.keys (record i) (record j) ∧ r i j := by
  simp only [← compareBy_eq_lt_iff, ← compareBy_eq_eq_iff]
  exact Sorter.pairwise_mergeSort_of_pairwise hnodup hitems

/-- Items that are in order stay as they are. -/
theorem sorted_sorted : plan.sorted record (plan.sorted record items) = plan.sorted record items :=
  List.mergeSort_of_pairwise (Sorter.pairwise_mergeSort_ne_gt _ items)

/-- Of two items only one is to stand in front of the other. -/
theorem precedes_asymm (hasymm : ∀ i j, r i j → ¬ r j i) (i j : ι)
    (hij : Precedes plan.keys (record i) (record j) ∨
      Ties plan.keys (record i) (record j) ∧ r i j) :
    ¬ (Precedes plan.keys (record j) (record i) ∨
      Ties plan.keys (record j) (record i) ∧ r j i) := by
  have hswap : compareBy plan.keys (record j) (record i) =
      (compareBy plan.keys (record i) (record j)).swap := htrans.eq_swap
  rw [← compareBy_eq_lt_iff, ← compareBy_eq_eq_iff] at hij ⊢
  rw [hswap]
  rcases hij with hbefore | ⟨hlevel, hrel⟩
  · simp [hbefore]
  · simp [hlevel, hasymm i j hrel]

/-- Items that stand as the first key says that tells them apart, and as they stood if no key does,
are the sorted items. -/
theorem eq_sorted_of_pairwise (hasymm : ∀ i j, r i j → ¬ r j i) (hitems : items.Pairwise r)
    (hperm : others.Perm items)
    (hothers : others.Pairwise fun i j => Precedes plan.keys (record i) (record j) ∨
      Ties plan.keys (record i) (record j) ∧ r i j) :
    others = plan.sorted record items := by
  have hnodup : items.Nodup := by
    refine hitems.imp ?_
    rintro i _ hrel rfl
    exact hasymm i i hrel hrel
  have hsame : others.Perm (plan.sorted record items) := hperm.trans (plan.sorted_perm _ _).symm
  refine hsame.eq_of_pairwise (fun i j _ _ hij hji => ?_) hothers
    (pairwise_sorted htrans hnodup hitems)
  exact absurd hji (precedes_asymm htrans hasymm i j hij)

end Orders

section Uniform

variable {α : Type} {plan : SortPlan} {record : α → Record} {items : List α}

/-- The sorted positions stand as the keys say, and ascend where no key tells them apart. -/
theorem pairwise_sorted_get (huniform : plan.Uniform (items.map record)) :
    (plan.sorted (fun i => record (items.get i)) (List.finRange items.length)).Pairwise fun i j =>
      Precedes plan.keys (record (items.get i)) (record (items.get j)) ∨
        Ties plan.keys (record (items.get i)) (record (items.get j)) ∧ i < j :=
  pairwise_sorted huniform.transCmp_get (List.nodup_finRange _) (List.pairwise_lt_finRange _)

/-- Items whose records are uniform are put in the same order by every routine. -/
theorem sort_eq_sorted (sorter : Sorter) (huniform : plan.Uniform (items.map record)) :
    plan.sort sorter record items = .ok (plan.sorted record items) := by
  have htrans := huniform.transCmp_get
  by_cases hidentity : plan.isIdentity = true
  · rw [sort_of_isIdentity hidentity, sorted_of_isIdentity hidentity]
  · obtain ⟨positions, horder, hpositions⟩ := sorter.stable htrans
    simp only [compareBy_eq_lt_iff, compareBy_eq_eq_iff] at hpositions
    have hsorted := eq_sorted_of_pairwise htrans (fun _ _ => lt_asymm)
      (List.pairwise_lt_finRange _) (sorter.perm horder) hpositions
    rw [sort, if_neg hidentity, SortPlan.positions, horder, sorted_eq_map_get, ← hsorted]
    rfl

end Uniform

end SortPlan

namespace View

variable {α : Type} {sorter : Sorter} {view : View α} {plan : SortPlan} {items : List α}

/-- Where every item can be viewed and the records are uniform, every routine puts a collection in
the order of its records. -/
theorem arrange_eq_sorted (hshows : ∀ item ∈ items, view.Shows item)
    (huniform : plan.Uniform (items.map view.recordOrNull)) :
    view.arrange sorter plan items = .ok (plan.sorted view.recordOrNull items) := by
  rw [arrange_eq_sort hshows, SortPlan.sort_eq_sorted sorter huniform]

/-- Ordering a collection gives the same items in an order that is correct and stable: of two of
them the one is in front of which the first key that tells them apart says so, and if no key does,
the one that came first. Items are named by their positions here, which are ordered as they are.
Ordered again, the items stay as they are. -/
theorem arrange_stable (sorter : Sorter) (hshows : ∀ item ∈ items, view.Shows item)
    (huniform : plan.Uniform (items.map view.recordOrNull)) :
    ∃ positions : List (Fin items.length),
      (view.through items.get).arrange sorter plan (List.finRange items.length) = .ok positions ∧
      view.arrange sorter plan items = .ok (positions.map items.get) ∧
      positions.Perm (List.finRange items.length) ∧
      (positions.map items.get).Perm items ∧
      (∀ i j, positions.idxOf i < positions.idxOf j ↔
        SortPlan.Precedes plan.keys (view.recordOrNull items[i]) (view.recordOrNull items[j]) ∨
          SortPlan.Ties plan.keys (view.recordOrNull items[i]) (view.recordOrNull items[j]) ∧
            i < j) ∧
      view.arrange sorter plan (positions.map items.get) = .ok (positions.map items.get) := by
  have htrans := huniform.transCmp_get
  let positions := plan.sorted (fun i => view.recordOrNull (items.get i))
    (List.finRange items.length)
  have hperm : positions.Perm (List.finRange items.length) := plan.sorted_perm _ _
  have hmem : ∀ i, i ∈ positions := fun i => hperm.mem_iff.mpr (List.mem_finRange i)
  have hanswer : view.arrange sorter plan items = .ok (positions.map items.get) := by
    rw [arrange_eq_sorted hshows huniform, SortPlan.sorted_eq_map_get]
  have hpositions : (view.through items.get).arrange sorter plan (List.finRange items.length) =
      .ok positions := by
    refine arrange_eq_sorted (fun i _ => hshows _ (List.get_mem items i)) ?_
    have hrecords : (List.finRange items.length).map (view.through items.get).recordOrNull =
        items.map view.recordOrNull := by
      conv_rhs => rw [← List.map_get_finRange items, List.map_map]
      rfl
    rwa [hrecords]
  have hsame : (positions.map items.get).Perm items := by
    conv_rhs => rw [← List.map_get_finRange items]
    exact hperm.map items.get
  refine ⟨positions, hpositions, hanswer, hperm, hsame, fun i j => ?_, ?_⟩
  · have hlt : ∀ i j : Fin items.length, i < j → ¬ j < i := fun i j hij => hij.asymm
    have hasymm := SortPlan.precedes_asymm htrans hlt
    exact idxOf_lt_idxOf_iff hasymm (SortPlan.pairwise_sorted_get huniform) (hmem i) (hmem j)
  · have hagain : plan.Uniform ((positions.map items.get).map view.recordOrNull) :=
      huniform.of_subset (hsame.map view.recordOrNull).subset
    rw [arrange_eq_sorted (fun item hitem => hshows item (hsame.mem_iff.mp hitem)) hagain,
      SortPlan.sorted_map]
    exact congrArg (fun sorted => Except.ok (List.map items.get sorted))
      (SortPlan.sorted_sorted htrans)

/-- By descending keys a number stands before a truth value, and a text before null, which stands
before what is missing. Two names of one instant keep their order. -/
theorem arrange_stable_descending :
    let view : View Record := .ok
    let one : Record := .number (.integer 1)
    let plan : SortPlan := ⟨[⟨"n", .descending⟩, ⟨"at", .descending⟩]⟩
    let items : List Record := [
      .object [("n", .bool true), ("at", .string "2024-01-05T00:00:00Z")],
      .object [("n", one)],
      .object [("n", one), ("at", .null)],
      .object [("n", one), ("at", .string "2024-01-02T00:30:00+02:00")],
      .object [("n", one), ("at", .string "2024-01-01T22:30:00Z")]]
    plan.Uniform (items.map view.recordOrNull) ∧ ∃ positions : List (Fin items.length),
      view.arrange .merging plan items = .ok (positions.map items.get) ∧
      positions.Perm (List.finRange items.length) ∧
      positions.idxOf 3 < positions.idxOf 4 ∧ positions.idxOf 4 < positions.idxOf 2 ∧
      positions.idxOf 2 < positions.idxOf 1 ∧ positions.idxOf 1 < positions.idxOf 0 ∧
      view.arrange .merging plan (positions.map items.get) = .ok (positions.map items.get) := by
  intro view one plan items
  have hshows : ∀ item ∈ items, view.Shows item := fun item _ => ⟨item, rfl⟩
  have huniform : plan.Uniform (items.map view.recordOrNull) := by decide
  obtain ⟨positions, _, hanswer, hperm, _, hplaces, hagain⟩ :=
    arrange_stable .merging hshows huniform
  simp only [← SortPlan.compareBy_eq_lt_iff, ← SortPlan.compareBy_eq_eq_iff] at hplaces
  exact ⟨huniform, positions, hanswer, hperm, (hplaces 3 4).mpr (by decide +kernel),
    (hplaces 4 2).mpr (by decide +kernel), (hplaces 2 1).mpr (by decide +kernel),
    (hplaces 1 0).mpr (by decide +kernel), hagain⟩

end View

end RecordQuery
