import Mathlib.Tactic.Common
import RecordQuery.Comparison

/-!
# The order of values

Values compare with themselves and in either direction as in a total order. Three values do as well,
with one exception: two timestamps are ordered as instants, but a text that is no timestamp stands
before or behind each of them as a text. Where it separates them against their instants, the three
texts go round in a circle. Nothing else does.
-/

namespace RecordQuery

instance : Std.TransOrd Instant :=
  inferInstanceAs (Std.TransCmp
    (compareLex (compareOn Instant.second) (compareOn Instant.nanosecond)))

instance : Std.TransOrd Binary64 :=
  inferInstanceAs (Std.TransCmp (compareOn Binary64.units))

namespace Comparison

/-! ## Circles of a comparison -/

section Circles

variable {α : Type} {cmp : α → α → Ordering} {a b c : α}

/-- Comparing three values is consistent: a value not above a second one, which is not above a third
one, is not above this third one either, and level with it only if all of them are level. -/
def Chains (cmp : α → α → Ordering) (a b c : α) : Prop :=
  cmp a b ≠ .gt → cmp b c ≠ .gt →
    cmp a c ≠ .gt ∧ (cmp a c = .eq → cmp a b = .eq ∧ cmp b c = .eq)

/-- Three values that are not all level, although none is above the next one, and the last one is
not above the first. -/
structure Circle (cmp : α → α → Ordering) (a b c : α) : Prop where
  first : cmp a b ≠ .gt
  second : cmp b c ≠ .gt
  third : cmp c a ≠ .gt
  not_level : ¬ (cmp a b = .eq ∧ cmp b c = .eq ∧ cmp c a = .eq)

/-- A circle may be entered at any of its values. -/
theorem Circle.rotate (h : Circle cmp a b c) : Circle cmp b c a where
  first := h.second
  second := h.third
  third := h.first
  not_level := fun ⟨hbc, hca, hab⟩ => h.not_level ⟨hab, hbc, hca⟩

/-- A comparison that answers in both directions alike is consistent except in circles. -/
theorem chains_iff_not_circle [Std.OrientedCmp cmp] : Chains cmp a b c ↔ ¬ Circle cmp a b c := by
  have hswap : cmp c a = (cmp a c).swap := Std.OrientedCmp.eq_swap
  constructor
  · intro hchains hcircle
    obtain ⟨hac, hlevel⟩ := hchains hcircle.first hcircle.second
    have hthird := hcircle.third
    have heq : cmp a c = .eq := by
      cases h : cmp a c with
      | lt => simp [hswap, h] at hthird
      | eq => rfl
      | gt => exact absurd h hac
    obtain ⟨hab, hbc⟩ := hlevel heq
    exact hcircle.not_level ⟨hab, hbc, by rw [hswap, heq]; rfl⟩
  · intro hcircle hab hbc
    by_contra hbroken
    refine hcircle ⟨hab, hbc, ?_, ?_⟩
    · intro hca
      refine hbroken ⟨?_, ?_⟩
      · rw [Std.OrientedCmp.gt_iff_lt.mp hca]
        simp
      · rw [Std.OrientedCmp.gt_iff_lt.mp hca]
        simp
    · rintro ⟨heqab, heqbc, hca⟩
      refine hbroken ⟨?_, fun _ => ⟨heqab, heqbc⟩⟩
      rw [Std.OrientedCmp.eq_comm.mp hca]
      simp

/-- A transitive comparison has no circles. -/
theorem not_circle_of_transCmp [Std.TransCmp cmp] : ¬ Circle cmp a b c := by
  rintro ⟨hab, hbc, hca, hlevel⟩
  replace hab := Ordering.isLE_iff_ne_gt.mpr hab
  replace hbc := Ordering.isLE_iff_ne_gt.mpr hbc
  replace hca := Ordering.isLE_iff_ne_gt.mpr hca
  -- What stands between two values that are level is level with them.
  have hba := Std.TransCmp.isLE_trans hbc hca
  have hcb := Std.TransCmp.isLE_trans hca hab
  have hac := Std.TransCmp.isLE_trans hab hbc
  exact hlevel ⟨Std.OrientedCmp.isLE_antisymm hab hba, Std.OrientedCmp.isLE_antisymm hbc hcb,
    Std.OrientedCmp.isLE_antisymm hca hac⟩

/-- What is compared by a transitive comparison first goes round only where that one says level. -/
theorem circle_then_iff {first second : α → α → Ordering} [Std.TransCmp first] :
    Circle (fun a b => (first a b).then (second a b)) a b c ↔
      (first a b = .eq ∧ first b c = .eq) ∧ Circle second a b c := by
  have hle : ∀ {x y : α}, (first x y).then (second x y) ≠ .gt → first x y ≠ .gt := by
    intro x y hthen hgt
    exact hthen (by rw [hgt]; rfl)
  constructor
  · rintro ⟨hab, hbc, hca, hlevel⟩
    have hfirst : first a b = .eq ∧ first b c = .eq ∧ first c a = .eq := by
      by_contra hnot
      exact not_circle_of_transCmp ⟨hle hab, hle hbc, hle hca, hnot⟩
    obtain ⟨heqab, heqbc, heqca⟩ := hfirst
    simp only [heqab, heqbc, heqca, Ordering.eq_then] at hab hbc hca hlevel
    exact ⟨⟨heqab, heqbc⟩, hab, hbc, hca, hlevel⟩
  · rintro ⟨⟨heqab, heqbc⟩, hab, hbc, hca, hlevel⟩
    have heqca : first c a = .eq :=
      Std.OrientedCmp.eq_comm.mp (Std.TransCmp.eq_trans heqab heqbc)
    refine ⟨?_, ?_, ?_, ?_⟩ <;> simpa only [heqab, heqbc, heqca, Ordering.eq_then]

end Circles

/-! ## Texts -/

section Texts

variable {s t u : String} {i j : Instant}

/-- Two timestamps are ordered as instants. -/
theorem compareTexts_of_instants (hs : Instant.read? s.toList = some i)
    (ht : Instant.read? t.toList = some j) : compareTexts s t = compare i j := by
  rw [compareTexts, hs, ht]

/-- What is no timestamp is ordered as a text. -/
theorem compareTexts_of_left (hs : Instant.read? s.toList = none) :
    compareTexts s t = compare s t := by
  rw [compareTexts, hs]

/-- With what is no timestamp, everything is compared as a text. -/
theorem compareTexts_of_right (ht : Instant.read? t.toList = none) :
    compareTexts s t = compare s t := by
  rw [compareTexts, ht]
  cases Instant.read? s.toList <;> rfl

instance : Std.OrientedCmp compareTexts where
  eq_swap := by
    intro s t
    cases hs : Instant.read? s.toList with
    | none =>
      rw [compareTexts_of_left hs, compareTexts_of_right hs]
      exact Std.OrientedOrd.eq_swap
    | some i =>
      cases ht : Instant.read? t.toList with
      | none =>
        rw [compareTexts_of_right ht, compareTexts_of_left ht]
        exact Std.OrientedOrd.eq_swap
      | some j =>
        rw [compareTexts_of_instants hs ht, compareTexts_of_instants ht hs]
        exact Std.OrientedOrd.eq_swap

/-- A text that is no timestamp stands, as texts do, behind one timestamp and before another one,
whose instant is not the later one. -/
structure Separates (s t u : String) : Prop where
  not_timestamp : Instant.read? t.toList = none
  behind : compare s t = .lt
  before : compare t u = .lt
  instants : ∃ i j, Instant.read? s.toList = some i ∧ Instant.read? u.toList = some j ∧
    compare j i ≠ .gt

/-- Two timestamps and another text go round in a circle if the text separates the timestamps. -/
theorem circle_iff_separates (hs : Instant.read? s.toList = some i)
    (ht : Instant.read? t.toList = none) (hu : Instant.read? u.toList = some j) :
    Circle compareTexts s t u ↔ Separates s t u := by
  have hst : compareTexts s t = compare s t := compareTexts_of_right ht
  have htu : compareTexts t u = compare t u := compareTexts_of_left ht
  have hus : compareTexts u s = compare j i := compareTexts_of_instants hu hs
  -- A text that is no timestamp is level with no timestamp.
  have hne : compare s t ≠ .eq := by
    intro heq
    obtain rfl := Std.LawfulEqOrd.eq_of_compare heq
    rw [hs] at ht
    cases ht
  have hne' : compare t u ≠ .eq := by
    intro heq
    obtain rfl := Std.LawfulEqOrd.eq_of_compare heq
    rw [hu] at ht
    cases ht
  constructor
  · rintro ⟨hfirst, hsecond, hthird, _⟩
    rw [hst] at hfirst
    rw [htu] at hsecond
    rw [hus] at hthird
    have hlt : ∀ {o : Ordering}, o ≠ .gt → o ≠ .eq → o = .lt := by decide
    exact ⟨ht, hlt hfirst hne, hlt hsecond hne', i, j, hs, hu, hthird⟩
  · rintro ⟨_, hbehind, hbefore, i', j', hs', hu', hinstants⟩
    obtain rfl := Option.some.inj (hs.symm.trans hs')
    obtain rfl := Option.some.inj (hu.symm.trans hu')
    refine ⟨?_, ?_, ?_, ?_⟩
    · rw [hst, hbehind]
      simp
    · rw [htu, hbefore]
      simp
    · rwa [hus]
    · rintro ⟨heq, _, _⟩
      exact hne (hst ▸ heq)

/-- A text that separates two others goes round in a circle with them. -/
theorem Separates.circle (h : Separates s t u) : Circle compareTexts s t u := by
  obtain ⟨i, j, hs, hu, _⟩ := h.instants
  exact (circle_iff_separates hs h.not_timestamp hu).mpr h

/-- Three texts that are compared as texts do not go round in a circle. -/
theorem not_circle_of_texts (hst : compareTexts s t = compare s t)
    (htu : compareTexts t u = compare t u) (hus : compareTexts u s = compare u s) :
    ¬ Circle compareTexts s t u := by
  rintro ⟨hfirst, hsecond, hthird, hlevel⟩
  rw [hst] at hfirst
  rw [htu] at hsecond
  rw [hus] at hthird
  rw [hst, htu, hus] at hlevel
  exact not_circle_of_transCmp ⟨hfirst, hsecond, hthird, hlevel⟩

/-- Three timestamps do not go round in a circle. -/
theorem not_circle_of_instants {k : Instant} (hs : Instant.read? s.toList = some i)
    (ht : Instant.read? t.toList = some j) (hu : Instant.read? u.toList = some k) :
    ¬ Circle compareTexts s t u := by
  rintro ⟨hfirst, hsecond, hthird, hlevel⟩
  rw [compareTexts_of_instants hs ht] at hfirst
  rw [compareTexts_of_instants ht hu] at hsecond
  rw [compareTexts_of_instants hu hs] at hthird
  rw [compareTexts_of_instants hs ht, compareTexts_of_instants ht hu,
    compareTexts_of_instants hu hs] at hlevel
  exact not_circle_of_transCmp ⟨hfirst, hsecond, hthird, hlevel⟩

/-- Three texts go round in a circle exactly if one of them separates the other two. -/
theorem circle_compareTexts_iff (s t u : String) :
    Circle compareTexts s t u ↔ Separates s t u ∨ Separates t u s ∨ Separates u s t := by
  constructor
  · intro hcircle
    cases hs : Instant.read? s.toList with
    | none =>
      cases ht : Instant.read? t.toList with
      | none =>
        exact absurd hcircle (not_circle_of_texts (compareTexts_of_left hs)
          (compareTexts_of_left ht) (compareTexts_of_right hs))
      | some j =>
        cases hu : Instant.read? u.toList with
        | none =>
          exact absurd hcircle (not_circle_of_texts (compareTexts_of_left hs)
            (compareTexts_of_right hu) (compareTexts_of_right hs))
        | some k => exact .inr (.inr ((circle_iff_separates hu hs ht).mp hcircle.rotate.rotate))
    | some i =>
      cases ht : Instant.read? t.toList with
      | none =>
        cases hu : Instant.read? u.toList with
        | none =>
          exact absurd hcircle (not_circle_of_texts (compareTexts_of_right ht)
            (compareTexts_of_left ht) (compareTexts_of_left hu))
        | some k => exact .inl ((circle_iff_separates hs ht hu).mp hcircle)
      | some j =>
        cases hu : Instant.read? u.toList with
        | none => exact .inr (.inl ((circle_iff_separates ht hu hs).mp hcircle.rotate))
        | some k => exact absurd hcircle (not_circle_of_instants hs ht hu)
  · rintro (hseparates | hseparates | hseparates)
    · exact hseparates.circle
    · exact hseparates.circle.rotate.rotate
    · exact hseparates.circle.rotate

end Texts

/-! ## Values -/

section Values

/-- The order of values of one rank. -/
def compareWithin : Option Record → Option Record → Ordering
  | some (.bool x), some (.bool y) => compare x y
  | some (.number x), some (.number y) => compare x.nearest y.nearest
  | some (.string x), some (.string y) => compareTexts x y
  | _, _ => .eq

/-- Values are compared by their ranks, and values of one rank by what they hold. -/
theorem compareValues_eq_then (a b : Option Record) :
    compareValues a b = (compare (rank a) (rank b)).then (compareWithin a b) := by
  unfold compareValues compareWithin
  split
  · simp [rank]
  · simp [rank]
  · simp [rank]
  · simp

/-- Values of one rank are compared in either direction alike. -/
theorem compareWithin_swap (a b : Option Record) :
    compareWithin a b = (compareWithin b a).swap := by
  fun_cases compareWithin a b with
  | case1 x y => exact Std.OrientedOrd.eq_swap
  | case2 x y => exact Std.OrientedOrd.eq_swap
  | case3 x y => exact Std.OrientedCmp.eq_swap
  | case4 _ _ hbool hnumber hstring =>
    fun_cases compareWithin b a
    · exact (hbool _ _ rfl rfl).elim
    · exact (hnumber _ _ rfl rfl).elim
    · exact (hstring _ _ rfl rfl).elim
    · rfl

instance : Std.OrientedCmp compareValues where
  eq_swap := by
    intro a b
    rw [compareValues_eq_then, compareValues_eq_then, Ordering.swap_then, ← compareWithin_swap,
      ← Std.OrientedOrd.eq_swap]

theorem exists_bool_of_rank {a : Option Record} (h : rank a = 2) : ∃ x, a = some (.bool x) := by
  fun_cases rank a with
  | case3 x => exact ⟨x, rfl⟩
  | _ => cases h

theorem exists_number_of_rank {a : Option Record} (h : rank a = 3) :
    ∃ x, a = some (.number x) := by
  fun_cases rank a with
  | case4 x => exact ⟨x, rfl⟩
  | _ => cases h

theorem exists_string_of_rank {a : Option Record} (h : rank a = 4) :
    ∃ s, a = some (.string s) := by
  fun_cases rank a with
  | case5 s => exact ⟨s, rfl⟩
  | _ => cases h

/-- All values of the other ranks are level. -/
theorem compareWithin_of_rank {a : Option Record} (hbool : rank a ≠ 2) (hnumber : rank a ≠ 3)
    (hstring : rank a ≠ 4) (b : Option Record) : compareWithin a b = .eq := by
  fun_cases compareWithin a b with
  | case1 => exact absurd rfl hbool
  | case2 => exact absurd rfl hnumber
  | case3 => exact absurd rfl hstring
  | case4 => rfl

/-- Values of one rank that go round in a circle are texts. -/
theorem rank_of_circle {a b c : Option Record} (hab : rank a = rank b) (hbc : rank b = rank c)
    (hcircle : Circle compareWithin a b c) : rank a = 4 := by
  by_contra hstring
  by_cases hbool : rank a = 2
  · obtain ⟨x, rfl⟩ := exists_bool_of_rank hbool
    obtain ⟨y, rfl⟩ := exists_bool_of_rank (hab ▸ hbool)
    obtain ⟨z, rfl⟩ := exists_bool_of_rank (hbc ▸ hab ▸ hbool)
    have hbools : Circle (compare : Bool → Bool → Ordering) x y z :=
      ⟨hcircle.first, hcircle.second, hcircle.third, hcircle.not_level⟩
    exact not_circle_of_transCmp hbools
  · by_cases hnumber : rank a = 3
    · obtain ⟨x, rfl⟩ := exists_number_of_rank hnumber
      obtain ⟨y, rfl⟩ := exists_number_of_rank (hab ▸ hnumber)
      obtain ⟨z, rfl⟩ := exists_number_of_rank (hbc ▸ hab ▸ hnumber)
      have hnumbers : Circle (compareOn Number.nearest) x y z :=
        ⟨hcircle.first, hcircle.second, hcircle.third, hcircle.not_level⟩
      exact not_circle_of_transCmp hnumbers
    · have hlevel : ∀ {x : Option Record}, rank x = rank a → ∀ y, compareWithin x y = .eq := by
        intro x hx
        exact compareWithin_of_rank (hx ▸ hbool) (hx ▸ hnumber) (hx ▸ hstring)
      exact hcircle.not_level
        ⟨hlevel rfl b, hlevel hab.symm c, hlevel (hab.trans hbc).symm a⟩

/-- The second of three values is a text that separates the other two. -/
inductive Separated : Option Record → Option Record → Option Record → Prop
  | intro {s t u : String} : Separates s t u →
    Separated (some (.string s)) (some (.string t)) (some (.string u))

theorem separated_iff {s t u : String} :
    Separated (some (.string s)) (some (.string t)) (some (.string u)) ↔ Separates s t u :=
  ⟨fun ⟨h⟩ => h, .intro⟩

/-- Texts are compared among values as they are among texts. -/
theorem circle_strings_iff {s t u : String} :
    Circle compareValues (some (.string s)) (some (.string t)) (some (.string u)) ↔
      Circle compareTexts s t u :=
  ⟨fun ⟨hst, htu, hus, hlevel⟩ => ⟨hst, htu, hus, hlevel⟩,
    fun ⟨hst, htu, hus, hlevel⟩ => ⟨hst, htu, hus, hlevel⟩⟩

/-- A value that separates two others goes round in a circle with them. -/
theorem Separated.circle {a b c : Option Record} (h : Separated a b c) :
    Circle compareValues a b c := by
  cases h with
  | intro hseparates => exact circle_strings_iff.mpr hseparates.circle

/-- Values that go round in a circle are texts. -/
theorem exists_strings_of_circle {a b c : Option Record} (hcircle : Circle compareValues a b c) :
    ∃ s t u, a = some (.string s) ∧ b = some (.string t) ∧ c = some (.string u) := by
  have hthen : compareValues = fun a b => (compareOn rank a b).then (compareWithin a b) := by
    funext a b
    exact compareValues_eq_then a b
  rw [hthen, circle_then_iff] at hcircle
  obtain ⟨⟨hab, hbc⟩, hwithin⟩ := hcircle
  replace hab : rank a = rank b := Std.LawfulEqOrd.eq_of_compare hab
  replace hbc : rank b = rank c := Std.LawfulEqOrd.eq_of_compare hbc
  have hstring := rank_of_circle hab hbc hwithin
  obtain ⟨s, hs⟩ := exists_string_of_rank hstring
  obtain ⟨t, ht⟩ := exists_string_of_rank (hab ▸ hstring)
  obtain ⟨u, hu⟩ := exists_string_of_rank (hbc ▸ hab ▸ hstring)
  exact ⟨s, t, u, hs, ht, hu⟩

/-- Three values go round in a circle exactly if one of them separates the other two. -/
theorem circle_compareValues_iff (a b c : Option Record) :
    Circle compareValues a b c ↔ Separated a b c ∨ Separated b c a ∨ Separated c a b := by
  constructor
  · intro hcircle
    obtain ⟨s, t, u, rfl, rfl, rfl⟩ := exists_strings_of_circle hcircle
    rw [separated_iff, separated_iff, separated_iff, ← circle_compareTexts_iff]
    exact circle_strings_iff.mp hcircle
  · rintro (hseparated | hseparated | hseparated)
    · exact hseparated.circle
    · exact hseparated.circle.rotate.rotate
    · exact hseparated.circle.rotate

/-- The laws of a total order: every value is level with itself, the other way round a comparison is
reversed, and three values are compared consistently unless one of them is a text that separates the
other two, which are timestamps. -/
theorem compareValues_laws (a b c : Option Record) :
    compareValues a a = .eq ∧
      compareValues b a = (compareValues a b).swap ∧
      (Chains compareValues a b c ↔ ¬ (Separated a b c ∨ Separated b c a ∨ Separated c a b)) := by
  refine ⟨Std.ReflCmp.compare_self, Std.OrientedCmp.eq_swap, ?_⟩
  rw [chains_iff_not_circle, circle_compareValues_iff]

/-- Half past midnight at two hours' offset names an earlier instant than half past eleven in
universal time, which as a text is before the date of the next day, and this date is as a text before
the first one. -/
theorem compareValues_circle_date :
    ¬ Chains compareValues (some (.string "2024-01-02T00:30:00+02:00"))
      (some (.string "2024-01-01T23:30:00Z")) (some (.string "2024-01-02")) := by
  intro hchains
  have hinstants : compareValues (some (.string "2024-01-02T00:30:00+02:00"))
      (some (.string "2024-01-01T23:30:00Z")) = .lt := by decide
  have htexts : compareValues (some (.string "2024-01-01T23:30:00Z"))
      (some (.string "2024-01-02")) = .lt := by decide
  have hlast : compareValues (some (.string "2024-01-02T00:30:00+02:00"))
      (some (.string "2024-01-02")) = .gt := by decide
  exact (hchains (by simp [hinstants]) (by simp [htexts])).1 hlast

end Values

end Comparison

end RecordQuery
