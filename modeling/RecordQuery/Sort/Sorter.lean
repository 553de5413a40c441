/-!
# Sorting routines

A list is put in order by a routine that sees nothing of its items. It is told how the items at any
two positions compare, and it answers with the positions in their new order. Only a total order
binds it to an answer: by any other comparison the routine may break down, or put the positions in
an order of which nothing is known.
-/

namespace RecordQuery

/-- A routine that puts positions in order. -/
structure Sorter where
  /-- The positions in their new order, or `none` if the routine breaks down. -/
  order? : (count : Nat) → (Fin count → Fin count → Ordering) → Option (List (Fin count))
  /-- Whatever the comparison is, no position is lost, and none comes twice. -/
  perm {count : Nat} {compare : Fin count → Fin count → Ordering} {positions : List (Fin count)} :
    order? count compare = some positions → positions.Perm (List.finRange count)
  /-- By a total order the positions come to stand as it says, and level ones as before. -/
  stable {count : Nat} {compare : Fin count → Fin count → Ordering} : Std.TransCmp compare →
    ∃ positions, order? count compare = some positions ∧
      positions.Pairwise fun i j => compare i j = .lt ∨ compare i j = .eq ∧ i < j

namespace Sorter

variable {ι : Type} {items : List ι}

/-! ## Pairs of items -/

/-- Two items that differ stand in one of the two orders. -/
theorem pair_sublist_or {i j : ι} (hi : i ∈ items) (hj : j ∈ items) (hne : i ≠ j) :
    [i, j].Sublist items ∨ [j, i].Sublist items := by
  induction items with
  | nil => cases hi
  | cons first items ih =>
    rcases List.mem_cons.mp hi with rfl | hirest
    · have hjrest := (List.mem_cons.mp hj).resolve_left hne.symm
      exact .inl ((List.singleton_sublist.mpr hjrest).cons_cons i)
    · rcases List.mem_cons.mp hj with rfl | hjrest
      · exact .inr ((List.singleton_sublist.mpr hirest).cons_cons j)
      · exact (ih hirest hjrest).imp (.cons first) (.cons first)

/-- No two items stand in both orders where every item stands once. -/
theorem not_pair_sublist_swap (hnodup : items.Nodup) {i j : ι} (hij : [i, j].Sublist items) :
    ¬ [j, i].Sublist items := by
  induction items with
  | nil => cases hij
  | cons first items ih =>
    obtain ⟨hfirst, hnodup⟩ := List.nodup_cons.mp hnodup
    intro hji
    cases hij with
    | cons _ hij =>
      cases hji with
      | cons _ hji => exact ih hnodup hij hji
      | cons_cons _ hi => exact hfirst (hij.subset (by simp))
    | cons_cons _ hj =>
      cases hji with
      | cons _ hji => exact hfirst (hji.subset (by simp))
      | cons_cons _ hi => exact hfirst (hj.subset (by simp))

/-! ## Merge sort -/

section Merging

variable {compare : ι → ι → Ordering} [Std.TransCmp compare] {r : ι → ι → Prop}

/-- Not being above is transitive. -/
theorem ne_gt_trans {i j k : ι} (hij : (compare i j != .gt) = true)
    (hjk : (compare j k != .gt) = true) : (compare i k != .gt) = true := by
  simp only [bne_iff_ne, ← Ordering.isLE_iff_ne_gt] at *
  exact Std.TransCmp.isLE_trans hij hjk

/-- One of two is not above the other. -/
theorem ne_gt_total (i j : ι) : (compare i j != .gt || compare j i != .gt) = true := by
  have hswap : compare j i = (compare i j).swap := Std.OrientedCmp.eq_swap
  rw [hswap]
  cases compare i j <;> rfl

/-- No sorted item is above one behind it. -/
theorem pairwise_mergeSort_ne_gt (compare : ι → ι → Ordering) [Std.TransCmp compare]
    (items : List ι) : (items.mergeSort fun i j => compare i j != .gt).Pairwise
      fun i j => (compare i j != .gt) = true :=
  List.pairwise_mergeSort (fun _ _ _ => ne_gt_trans) ne_gt_total items

/-- An item that stands in front of another one, with which it is level, stays in front of it. -/
theorem pair_sublist_mergeSort_of_eq {i j : ι} (hij : [i, j].Sublist items)
    (hlevel : compare i j = .eq) :
    [i, j].Sublist (items.mergeSort fun i j => compare i j != .gt) :=
  List.pair_sublist_mergeSort (fun _ _ _ => ne_gt_trans) ne_gt_total (by simp [hlevel]) hij

/-- Sorted items stand in the order of the comparison, and those that are level as they stood. -/
theorem pairwise_mergeSort_of_pairwise (hnodup : items.Nodup) (hitems : items.Pairwise r) :
    (items.mergeSort fun i j => compare i j != .gt).Pairwise
      fun i j => compare i j = .lt ∨ compare i j = .eq ∧ r i j := by
  have hperm := List.mergeSort_perm items fun i j => compare i j != .gt
  have hsorted := pairwise_mergeSort_ne_gt compare items
  have hdiffer := hperm.nodup_iff.mpr hnodup
  rw [List.pairwise_iff_forall_sublist] at hsorted hitems ⊢
  intro i j hij
  have hle := hsorted hij
  cases hcompare : compare i j with
  | lt => exact .inl rfl
  | gt => simp [hcompare] at hle
  | eq =>
    have hi : i ∈ items := hperm.mem_iff.mp (hij.subset (by simp))
    have hj : j ∈ items := hperm.mem_iff.mp (hij.subset (by simp))
    have hne : i ≠ j := by
      rintro rfl
      exact not_pair_sublist_swap hdiffer hij hij
    rcases pair_sublist_or hi hj hne with hbefore | hbehind
    · exact .inr ⟨rfl, hitems hbefore⟩
    · -- Level items that stood the other way round would still do so.
      have hlevel : compare j i = .eq := Std.OrientedCmp.eq_comm.mp hcompare
      exact absurd (pair_sublist_mergeSort_of_eq hbehind hlevel)
        (not_pair_sublist_swap hdiffer hij)

end Merging

/-- Merge sort, which never breaks down. -/
def merging : Sorter where
  order? count compare := some ((List.finRange count).mergeSort fun i j => compare i j != .gt)
  perm hpositions := Option.some.inj hpositions ▸ List.mergeSort_perm _ _
  stable _ := ⟨_, rfl, pairwise_mergeSort_of_pairwise (List.nodup_finRange _)
    (List.pairwise_lt_finRange _)⟩

end Sorter

end RecordQuery
