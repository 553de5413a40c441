import RecordQuery.Proofs.ValueOrder
import RecordQuery.Sort.Records

/-!
# The order of records by keys

Where the texts under a key are all timestamps, or none of them is, no text separates two others,
and the values under the key are in a total order. So are the records then, by one key in either
direction and by several keys, of which the first one that tells two records apart decides.
-/

namespace RecordQuery

variable {ι : Type}

namespace Comparison

/-- Whether a text names an instant. -/
def isTimestamp (text : String) : Bool :=
  (Instant.read? text.toList).isSome

/-- The text that a value is, if it is one. -/
def text? : Option Record → Option String
  | some (.string text) => some text
  | _ => none

/-- The texts among values are all timestamps, or none of them is. -/
def Uniform (values : List (Option Record)) : Prop :=
  ∃ timestamps : Bool, ∀ value ∈ values, ∀ text ∈ text? value, isTimestamp text = timestamps

instance (values : List (Option Record)) : Decidable (Uniform values) :=
  inferInstanceAs
    (Decidable (∃ timestamps : Bool, ∀ value ∈ values, ∀ text ∈ text? value, _ = timestamps))

variable {values : List (Option Record)}

/-- Among uniform values nothing separates others: a text that does is no timestamp, and the others
are. -/
theorem Uniform.not_separated (huniform : Uniform values) {a b : Option Record} (ha : a ∈ values)
    (hb : b ∈ values) (c : Option Record) : ¬ Separated a b c := by
  rintro ⟨hseparates⟩
  obtain ⟨timestamps, htexts⟩ := huniform
  obtain ⟨i, _, hs, _⟩ := hseparates.instants
  have hfirst := htexts _ ha _ rfl
  have hsecond := htexts _ hb _ rfl
  rw [isTimestamp, hs] at hfirst
  rw [isTimestamp, hseparates.not_timestamp, ← hfirst] at hsecond
  cases hsecond

/-- Some of uniform values are uniform. -/
theorem Uniform.of_subset {others : List (Option Record)} (huniform : Uniform values)
    (hsubset : others ⊆ values) : Uniform others := by
  obtain ⟨timestamps, htexts⟩ := huniform
  exact ⟨timestamps, fun value hvalue => htexts value (hsubset hvalue)⟩

/-- Uniform values are in a total order. -/
theorem Uniform.transCmp (huniform : Uniform values) {value : ι → Option Record}
    (hmem : ∀ i, value i ∈ values) : Std.TransCmp fun i j => compareValues (value i) (value j) where
  eq_swap := Std.OrientedCmp.eq_swap
  isLE_trans := by
    intro i j k hij hjk
    have hcircle : ¬ Circle compareValues (value i) (value j) (value k) := by
      rw [circle_compareValues_iff]
      rintro (hseparated | hseparated | hseparated)
      · exact huniform.not_separated (hmem i) (hmem j) _ hseparated
      · exact huniform.not_separated (hmem j) (hmem k) _ hseparated
      · exact huniform.not_separated (hmem k) (hmem i) _ hseparated
    rw [Ordering.isLE_iff_ne_gt] at hij hjk ⊢
    exact (chains_iff_not_circle.mpr hcircle hij hjk).1

end Comparison

/-- The values of records under a key. -/
def SortKey.values (key : SortKey) (records : List Record) : List (Option Record) :=
  records.map (·.field? key.field)

/-- Under every key, the texts of records are all timestamps, or none of them is. -/
def SortPlan.Uniform (plan : SortPlan) (records : List Record) : Prop :=
  ∀ key ∈ plan.keys, Comparison.Uniform (key.values records)

instance (plan : SortPlan) (records : List Record) : Decidable (plan.Uniform records) :=
  inferInstanceAs (Decidable (∀ key ∈ plan.keys, _))

/-- Some of uniform records are uniform. -/
theorem SortPlan.Uniform.of_subset {plan : SortPlan} {records others : List Record}
    (huniform : plan.Uniform records) (hsubset : others ⊆ records) : plan.Uniform others :=
  fun key hkey => (huniform key hkey).of_subset (List.map_subset _ hsubset)

/-- One key puts records in a total order if their values under it are uniform. -/
theorem SortKey.transCmp {key : SortKey} {records : List Record}
    (huniform : Comparison.Uniform (key.values records)) {record : ι → Record}
    (hmem : ∀ i, record i ∈ records) :
    Std.TransCmp fun i j => key.compare (record i) (record j) := by
  have hvalues : Std.TransCmp fun i j => Comparison.compareValues ((record i).field? key.field)
      ((record j).field? key.field) :=
    huniform.transCmp fun i => List.mem_map_of_mem (hmem i)
  obtain ⟨field, direction⟩ := key
  cases direction with
  | ascending => exact hvalues
  | descending =>
    have hswap : (fun i j => SortKey.compare ⟨field, .descending⟩ (record i) (record j)) =
        fun i j =>
          Comparison.compareValues ((record j).field? field) ((record i).field? field) := by
      funext i j
      exact Std.OrientedCmp.eq_swap.symm
    rw [hswap]
    exact Std.TransCmp.opposite

namespace SortPlan

variable {keys : List SortKey} {a b : Record}

/-- Several keys put records in a total order if each of them does. -/
theorem transCmp_compareBy {record : ι → Record}
    (hkeys : ∀ key ∈ keys, Std.TransCmp fun i j => key.compare (record i) (record j)) :
    Std.TransCmp fun i j => compareBy keys (record i) (record j) := by
  induction keys with
  | nil =>
    exact { eq_swap := rfl, isLE_trans := fun _ _ => rfl }
  | cons key keys ih =>
    obtain ⟨hkey, hkeys⟩ := List.forall_mem_cons.mp hkeys
    have hrest := ih hkeys
    exact inferInstanceAs (Std.TransCmp (compareLex (fun i j => key.compare (record i) (record j))
      fun i j => compareBy keys (record i) (record j)))

/-- A plan puts records in a total order if they are uniform under its keys. -/
theorem Uniform.transCmp {plan : SortPlan} {records : List Record} (huniform : plan.Uniform records)
    {record : ι → Record} (hmem : ∀ i, record i ∈ records) :
    Std.TransCmp fun i j => compareBy plan.keys (record i) (record j) :=
  transCmp_compareBy fun key hkey => SortKey.transCmp (huniform key hkey) hmem

/-- Items whose records are uniform are in a total order at their positions. -/
theorem Uniform.transCmp_get {α : Type} {plan : SortPlan} {record : α → Record} {items : List α}
    (huniform : plan.Uniform (items.map record)) :
    Std.TransCmp fun i j => compareBy plan.keys (record (items.get i)) (record (items.get j)) :=
  huniform.transCmp fun i => List.mem_map_of_mem (List.get_mem items i)

/-- The first key that tells two records apart puts the first one of them before the other. -/
def Precedes (keys : List SortKey) (a b : Record) : Prop :=
  ∃ earlier key later, keys = earlier ++ key :: later ∧
    (∀ other ∈ earlier, other.compare a b = .eq) ∧ key.compare a b = .lt

/-- No key tells two records apart. -/
def Ties (keys : List SortKey) (a b : Record) : Prop :=
  ∀ key ∈ keys, key.compare a b = .eq

theorem compareBy_eq_eq_iff : compareBy keys a b = .eq ↔ Ties keys a b := by
  induction keys with
  | nil => simp [compareBy, Ties]
  | cons key keys ih =>
    rw [compareBy, Ordering.then_eq_eq, ih, Ties, Ties, List.forall_mem_cons]

theorem not_precedes_nil : ¬ Precedes [] a b := by
  rintro ⟨earlier, key, later, hkeys, _⟩
  exact List.append_ne_nil_of_right_ne_nil earlier (List.cons_ne_nil key later) hkeys.symm

theorem precedes_cons {key : SortKey} : Precedes (key :: keys) a b ↔
    key.compare a b = .lt ∨ key.compare a b = .eq ∧ Precedes keys a b := by
  constructor
  · rintro ⟨_ | ⟨first, earlier⟩, decider, later, hkeys, hearlier, hdecider⟩
    · obtain ⟨rfl, rfl⟩ := List.cons_eq_cons.mp hkeys
      exact .inl hdecider
    · obtain ⟨rfl, rfl⟩ := List.cons_eq_cons.mp hkeys
      obtain ⟨hfirst, hearlier⟩ := List.forall_mem_cons.mp hearlier
      exact .inr ⟨hfirst, earlier, decider, later, rfl, hearlier, hdecider⟩
  · rintro (hlt | ⟨heq, earlier, decider, later, rfl, hearlier, hdecider⟩)
    · exact ⟨[], key, keys, rfl, List.forall_mem_nil _, hlt⟩
    · exact ⟨key :: earlier, decider, later, rfl, List.forall_mem_cons.mpr ⟨heq, hearlier⟩,
        hdecider⟩

theorem compareBy_eq_lt_iff : compareBy keys a b = .lt ↔ Precedes keys a b := by
  induction keys with
  | nil => simp [compareBy, not_precedes_nil]
  | cons key keys ih => rw [compareBy, Ordering.then_eq_lt, ih, precedes_cons]

end SortPlan

end RecordQuery
