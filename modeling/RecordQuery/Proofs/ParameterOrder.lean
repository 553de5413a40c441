import RecordQuery.Proofs.Parameters
import RecordQuery.Proofs.Rounding

/-!
# Comparing with what a parameter spells

A value compares with a parameter as it is ordered with the value that the parameter spells. For
integers this rests on rounding: the integer of a record and the digits of a parameter are both
rounded to the nearest double, and there is only one. So the order of integers may be lost where
doubles are far apart, but it is never turned around, and nothing is lost up to `2 ^ 53`.
-/

namespace RecordQuery

/-! ## Integers as doubles -/

namespace Binary64

variable {value other : ℚ} {x y : Binary64} {n m : Int}

/-- The decimal with the digits of an integer and its sign is this integer. -/
theorem toRat_natAbs {negative : Bool}
    (hsign : n = if negative then -(n.natAbs : Int) else n.natAbs) :
    Decimal.toRat ⟨negative, n.natAbs, 0⟩ = n := by
  conv_rhs => rw [hsign]
  cases negative <;> simp [Decimal.toRat]

/-- An integer is rounded correctly. -/
theorem isNearest_integer (n : Int) : IsNearest n (Number.integer n).nearest := by
  have hsign : n = if decide (n < 0) then -(n.natAbs : Int) else n.natAbs := by
    split_ifs with hneg
    · have hneg := of_decide_eq_true hneg
      omega
    · have hneg := of_decide_eq_false (Bool.eq_false_of_not_eq_true hneg)
      omega
  have hnearest := isNearest_nearest ⟨n < 0, n.natAbs, 0⟩
  rwa [toRat_natAbs hsign] at hnearest

/-- An integer of at most 53 bits, or the first one that has a bit more, is a double. -/
theorem IsNearest.units_eq_mul (hx : IsNearest n x) (hle : n.natAbs ≤ 2 ^ 53) :
    x.units = n * (2 ^ 1074 : ℕ) := by
  refine hx.units_eq (isDouble_of_natAbs_eq (r := n.natAbs) (k := 1074) ?_ hle ?_) ?_
  · rw [Int.natAbs_mul, Int.natAbs_natCast]
  · refine (Nat.mul_le_mul_right _ hle).trans ?_
    rw [← pow_add, pow_le_ceiling_iff]
    decide
  · unfold inUnits
    generalize 1074 = exponent
    push_cast
    rfl

/-- Rounding does not turn the order of two numbers around. -/
theorem IsNearest.compare_ne_gt (hx : IsNearest value x) (hy : IsNearest other y)
    (hle : value ≤ other) : compare x y ≠ .gt := by
  have hunits : x.units ≤ y.units := hx.mono hy hle
  show compare x.units y.units ≠ .gt
  rwa [ne_eq, compare_gt_iff_gt, not_lt]

theorem IsNearest.compare_ne_lt (hx : IsNearest value x) (hy : IsNearest other y)
    (hle : other ≤ value) : compare x y ≠ .lt := by
  have hunits : y.units ≤ x.units := hy.mono hx hle
  show compare x.units y.units ≠ .lt
  rwa [ne_eq, compare_lt_iff_lt, not_lt]

/-- The order of integers is kept where they are doubles. -/
theorem IsNearest.compare_eq (hx : IsNearest n x) (hy : IsNearest m y) (hn : n.natAbs ≤ 2 ^ 53)
    (hm : m.natAbs ≤ 2 ^ 53) : compare x y = compare n m := by
  show compare x.units y.units = compare n m
  rw [hx.units_eq_mul hn, hy.units_eq_mul hm]
  have hpos : (0 : Int) < (2 ^ 1074 : ℕ) := by
    generalize 1074 = exponent
    positivity
  rw [← cmp_eq_compare, ← cmp_eq_compare]
  exact cmp_mul_pos_right hpos n m

end Binary64

namespace Comparison

open Binary64 (IsNearest isNearest_integer)

variable {digits : List Char} {parameter : String} {n m : Int}

/-! ## What parameters are read as -/

/-- A truth value is read between blanks. -/
theorem readBool?_of_pads {truth : Bool}
    (hpads : Text.Pads (toString truth).toList parameter.toList) :
    readBool? parameter = some truth := by
  have hblanks : (toString truth).toList.any Text.isBlank = false := by cases truth <;> decide
  have hcore : ∀ c ∈ (toString truth).toList, Text.isBlank c = false := fun c hc =>
    Bool.eq_false_of_not_eq_true (List.any_eq_false.mp hblanks c hc)
  have hne : (toString truth).toList ≠ [] := by cases truth <;> decide
  rw [readBool?_eq_some_iff, Text.trim_of_pads hcore hne hpads]

/-- An integer is read between blanks, as the double nearest to it. -/
theorem exists_readNumber?_of_pads (hspells : SpellsInteger digits m)
    (hpads : Text.Pads digits parameter.toList) :
    ∃ y, readNumber? parameter = some y ∧ IsNearest m y := by
  obtain ⟨negative, hread, hsign⟩ := Numeral.read?_of_spellsInteger hspells
  refine ⟨.nearest ⟨negative, m.natAbs, 0⟩, ?_, ?_⟩
  · rw [readNumber?, Text.trim_of_pads hspells.isBlank_eq_false hspells.ne_nil hpads, hread]
    rfl
  · rw [← Binary64.toRat_natAbs hsign]
    exact Binary64.isNearest_nearest _

/-- An integer of a record and one that a parameter spells compare as the doubles nearest to
them. -/
theorem exists_compareParameter_integer (n : Int) (hspells : SpellsInteger digits m)
    (hpads : Text.Pads digits parameter.toList) :
    ∃ x y, IsNearest n x ∧ IsNearest m y ∧
      compareParameter (.number (.integer n)) parameter = some (compare x y) := by
  obtain ⟨y, hread, hy⟩ := exists_readNumber?_of_pads hspells hpads
  refine ⟨_, y, isNearest_integer n, hy, ?_⟩
  rw [compareParameter, hread, Option.map_some]

/-! ## The two orders -/

/-- A value compares with a parameter as it is ordered with the value that the parameter spells.
Truth values and integers may have blanks around them, and integers may have a sign and zeros in
front. The order of integers is that of the doubles nearest to them. -/
theorem compareParameter_eq_compareValues :
    (∀ (truth spelled : Bool) (parameter : String),
      Text.Pads (toString spelled).toList parameter.toList →
      compareParameter (.bool truth) parameter =
        some (compareValues (some (.bool truth)) (some (.bool spelled)))) ∧
    (∀ text parameter : String,
      compareParameter (.string text) parameter =
        some (compareValues (some (.string text)) (some (.string parameter)))) ∧
    (∀ (n m : Int) (digits : List Char) (parameter : String),
      SpellsInteger digits m → Text.Pads digits parameter.toList →
      compareParameter (.number (.integer n)) parameter =
        some (compareValues (some (.number (.integer n))) (some (.number (.integer m)))) ∧
      ∃ x y, IsNearest n x ∧ IsNearest m y ∧
        compareValues (some (.number (.integer n))) (some (.number (.integer m))) =
          compare x y) := by
  refine ⟨?_, fun _ _ => rfl, ?_⟩
  · intro truth spelled parameter hpads
    rw [compareParameter, readBool?_of_pads hpads, Option.map_some]
    rfl
  · intro n m digits parameter hspells hpads
    obtain ⟨x, y, hx, hy, hcompare⟩ := exists_compareParameter_integer n hspells hpads
    -- The two ways of rounding lead to the same doubles.
    obtain rfl := hx.unique (isNearest_integer n)
    obtain rfl := hy.unique (isNearest_integer m)
    exact ⟨hcompare, _, _, hx, hy, rfl⟩

/-- An integer that no double holds is level with the one before it, and a truth value is found
between blanks. -/
theorem compareParameter_eq_compareValues_blanks :
    compareParameter (.bool false) "\ttrue\n" = some .lt ∧
      compareParameter (.number (.integer 9007199254740993)) " 9007199254740992 " = some .eq := by
  obtain ⟨hbool, _, hinteger⟩ := compareParameter_eq_compareValues
  have hblank : ∀ {c d : Char}, Text.isBlank d = true → c ∈ [d] → Text.isBlank c = true :=
    fun hd hc => List.mem_singleton.mp hc ▸ hd
  have htrue : Text.Pads (toString true).toList "\ttrue\n".toList :=
    ⟨['\t'], ['\n'], fun _ => hblank (by decide), fun _ => hblank (by decide), by decide⟩
  have hdigits : Text.Pads (toString (9007199254740992 : Int)).toList
      " 9007199254740992 ".toList :=
    ⟨[' '], [' '], fun _ => hblank (by decide), fun _ => hblank (by decide), by decide +kernel⟩
  refine ⟨hbool false true _ htrue, ?_⟩
  rw [(hinteger 9007199254740993 _ _ _ (spellsInteger_toString _) hdigits).1]
  decide +kernel

/-- An integer of a record always compares with digits behind an optional sign, however many there
are. Equal integers are level, the order of others may be lost but is not turned around, and up to
`2 ^ 53` it is the order of integers. -/
theorem compareParameter_integer (n : Int) (hspells : SpellsInteger parameter.toList m) :
    ∃ ordering, compareParameter (.number (.integer n)) parameter = some ordering ∧
      (n = m → ordering = .eq) ∧ (n < m → ordering ≠ .gt) ∧ (m < n → ordering ≠ .lt) ∧
      (n.natAbs ≤ 2 ^ 53 → m.natAbs ≤ 2 ^ 53 → ordering = compare n m) := by
  obtain ⟨x, y, hx, hy, hcompare⟩ :=
    exists_compareParameter_integer n hspells (Text.pads_self parameter.toList)
  refine ⟨compare x y, hcompare, ?_, ?_, ?_, hx.compare_eq hy⟩
  · rintro rfl
    obtain rfl := hx.unique hy
    show compare x.units x.units = .eq
    exact compare_eq_iff_eq.mpr rfl
  · intro hlt
    exact hx.compare_ne_gt hy (by exact_mod_cast hlt.le)
  · intro hlt
    exact hx.compare_ne_lt hy (by exact_mod_cast hlt.le)

/-- With a sign and zeros in front, an integer is not found less than one before it that is rounded
to the same double. -/
theorem compareParameter_integer_zeros :
    SpellsInteger "+009007199254740992".toList 9007199254740992 ∧
      ∃ ordering, compareParameter (.number (.integer 9007199254740993)) "+009007199254740992" =
        some ordering ∧ ordering ≠ .lt := by
  have hdigits : ∀ c ∈ "009007199254740992".toList, IsDigit c := fun c hc =>
    isDigit_iff.mp (List.all_eq_true.mp (by decide) c hc)
  have hspells : SpellsInteger "+009007199254740992".toList 9007199254740992 :=
    .plus (spellsNumber_iff.mpr ⟨by decide, hdigits, by decide⟩)
  obtain ⟨ordering, hcompare, _, _, hnot, _⟩ := compareParameter_integer 9007199254740993 hspells
  exact ⟨hspells, ordering, hcompare, hnot (by decide)⟩

end Comparison

end RecordQuery
