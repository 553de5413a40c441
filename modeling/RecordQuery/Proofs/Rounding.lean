import Mathlib.Algebra.Order.Field.Power
import Mathlib.Algebra.Order.Field.Rat
import Mathlib.Data.Rat.Cast.Order
import Mathlib.Tactic.FieldSimp
import Mathlib.Tactic.Linarith
import Mathlib.Tactic.Positivity
import Mathlib.Tactic.Ring
import RecordQuery.Comparison

/-!
# Correct rounding

The double nearest to a number is described here without regard to how it is found: no other double
is nearer, and if another one is as near, the last bit of the nearest one is zero. There is one such
double, it grows with the number, and it is the number itself if this is a double. What rounding
computes is this double, and infinity beyond the finite ones.
-/

namespace RecordQuery

/-- The number that a decimal is. -/
def Decimal.toRat (d : Decimal) : ℚ :=
  (if d.negative then -1 else 1) * d.mantissa * 10 ^ d.scale

namespace Binary64

/-- A number of units that a double has: at most 53 bits, with zeros behind them, up to where the
infinities stand. -/
def IsDouble (units : Int) : Prop :=
  units.natAbs ≤ ceiling ∧
    ∃ significand exponent : ℕ, significand < 2 ^ 53 ∧ units.natAbs = significand * 2 ^ exponent

/-- A number in units of the least positive double. -/
def inUnits (value : ℚ) : ℚ :=
  value * 2 ^ 1074

/-- How far a double is from a number, in units. -/
def distance (value : ℚ) (units : Int) : ℚ :=
  |inUnits value - units|

/-- A double is nearest to a number. If another one is as near, the gap between the two fits into
the nearest one an even number of times. -/
structure IsNearest (value : ℚ) (x : Binary64) : Prop where
  isDouble : IsDouble x.units
  distance_le : ∀ units, IsDouble units → distance value x.units ≤ distance value units
  even : ∀ units, IsDouble units → units ≠ x.units →
    distance value units = distance value x.units → 2 * (units - x.units) ∣ x.units

/-! ## What is nearest -/

section Nearest

variable {value other : ℚ} {x y : Binary64}

theorem inUnits_le_inUnits : inUnits value ≤ inUnits other ↔ value ≤ other :=
  mul_le_mul_iff_left₀ (by positivity)

/-- Two doubles that differ are not both nearest to a number: they would both be even. -/
theorem IsNearest.unique (hx : IsNearest value x) (hy : IsNearest value y) : x = y := by
  by_contra hne
  have hunits : y.units ≠ x.units := by
    intro heq
    exact hne (by cases x; cases y; cases heq; rfl)
  have hsame : distance value y.units = distance value x.units :=
    le_antisymm (hy.distance_le _ hx.isDouble) (hx.distance_le _ hy.isDouble)
  have hxeven : 2 * (y.units - x.units) ∣ x.units := hx.even _ hy.isDouble hunits hsame
  have hyeven : 2 * (y.units - x.units) ∣ y.units := by
    have h := hy.even _ hx.isDouble hunits.symm hsame.symm
    rwa [← Int.neg_dvd, ← mul_neg, neg_sub] at h
  -- So twice the gap would divide the gap.
  obtain ⟨k, hk⟩ := dvd_sub hyeven hxeven
  have hgap : (y.units - x.units) * (2 * k - 1) = 0 := by linarith
  rcases mul_eq_zero.mp hgap with hzero | hone
  · exact hunits (by omega)
  · omega

/-- What is nearest to a larger number is not less. -/
theorem IsNearest.mono (hx : IsNearest value x) (hy : IsNearest other y) (hle : value ≤ other) :
    x.units ≤ y.units := by
  by_contra hlt
  have hlt : (y.units : ℚ) < x.units := by exact_mod_cast not_le.mp hlt
  have hfirst := hx.distance_le _ hy.isDouble
  have hsecond := hy.distance_le _ hx.isDouble
  have hunits := inUnits_le_inUnits.mpr hle
  simp only [distance] at hfirst hsecond
  -- Each number is on its own side of the middle between the two doubles, the wrong one.
  have hleft : (x.units + y.units : ℚ) ≤ 2 * inUnits value := by
    rcases abs_cases (inUnits value - x.units) with h | h <;>
      rcases abs_cases (inUnits value - y.units) with h' | h' <;> linarith
  have hright : 2 * inUnits other ≤ (x.units + y.units : ℚ) := by
    rcases abs_cases (inUnits other - x.units) with h | h <;>
      rcases abs_cases (inUnits other - y.units) with h' | h' <;> linarith
  have hsame : value = other :=
    le_antisymm hle (inUnits_le_inUnits.mp (by linarith))
  have heq : x = y := hx.unique (hsame ▸ hy)
  rw [heq] at hlt
  exact lt_irrefl _ hlt

/-- A number that is a double is nearest to itself. -/
theorem IsNearest.units_eq {units : Int} (hx : IsNearest value x) (hunits : IsDouble units)
    (hvalue : inUnits value = units) : x.units = units := by
  have hdistance := hx.distance_le units hunits
  simp only [distance, hvalue, sub_self, abs_zero] at hdistance
  have hzero := abs_nonpos_iff.mp hdistance
  have heq : (x.units : ℚ) = units := by linarith
  exact_mod_cast heq

/-- Where the sign of a number changes, those of the doubles around it do. -/
theorem distance_neg (value : ℚ) (units : Int) :
    distance (-value) units = distance value (-units) := by
  have hneg : inUnits (-value) = -inUnits value := neg_mul _ _
  rw [distance, distance, ← abs_neg, hneg, Int.cast_neg, neg_sub', neg_neg]

theorem IsDouble.neg {units : Int} (hunits : IsDouble units) : IsDouble (-units) := by
  rwa [IsDouble, Int.natAbs_neg]

/-- A number and its negative have opposite nearest doubles. -/
theorem IsNearest.neg (hx : IsNearest value x) : IsNearest (-value) ⟨-x.units⟩ where
  isDouble := hx.isDouble.neg
  distance_le := by
    intro units hunits
    rw [distance_neg, distance_neg, neg_neg]
    exact hx.distance_le _ hunits.neg
  even := by
    intro units hunits hne heq
    rw [distance_neg, distance_neg, neg_neg] at heq
    have heven := hx.even _ hunits.neg (by simpa [neg_eq_iff_eq_neg] using hne) heq
    rw [dvd_neg, ← Int.neg_dvd]
    convert heven using 1
    ring

end Nearest

/-! ## Rounding to a grid -/

section Grid

/-- A quotient is rounded to a natural at most half away from it, and to an even one if it is just
in the middle between two. -/
theorem roundHalfEven_spec (numerator : ℕ) {denominator : ℕ} (hpos : 0 < denominator) :
    let rounded := roundHalfEven numerator denominator
    2 * numerator ≤ 2 * (rounded * denominator) + denominator ∧
      2 * (rounded * denominator) ≤ 2 * numerator + denominator ∧
      (2 * numerator = 2 * (rounded * denominator) + denominator ∨
        2 * (rounded * denominator) = 2 * numerator + denominator → 2 ∣ rounded) := by
  have hlt := Nat.mod_lt numerator hpos
  have hdiv := Nat.div_add_mod numerator denominator
  have hparity := Nat.mod_two_eq_zero_or_one (numerator / denominator)
  rw [mul_comm] at hdiv
  unfold roundHalfEven
  dsimp only
  generalize numerator / denominator = quotient at *
  generalize numerator % denominator = remainder at *
  split_ifs with hbelow habove
  · omega
  · rw [add_mul, one_mul]
    omega
  · rcases hparity with heven | hodd
    · rw [heven, add_zero]
      omega
    · rw [hodd, add_mul, one_mul]
      omega

/-- A multiple of a step is at most half a step away from a number, and an even multiple if it is
half a step away. -/
structure RoundsTo (t : ℚ) (step r : ℕ) : Prop where
  below : t ≤ r * step + step / 2
  above : r * step - step / 2 ≤ t
  even : t = r * step + step / 2 ∨ t = r * step - step / 2 → 2 ∣ r

variable {t : ℚ} {step r m : ℕ}

/-- Of the multiples of a step, the one to which a number is rounded is nearest to it. Another one
that is as near is the next one on the other side of the number. -/
theorem RoundsTo.abs_sub_le (hrounds : RoundsTo t step r) (hstep : 0 < step) {k : ℤ}
    (hne : k ≠ r) :
    |t - r * step| ≤ |t - k * step| ∧
      (|t - k * step| = |t - r * step| →
        t = r * step + step / 2 ∧ k = r + 1 ∨ t = r * step - step / 2 ∧ k = r - 1) := by
  obtain ⟨hbelow, habove, _⟩ := hrounds
  have hpos : (0 : ℚ) < step := by exact_mod_cast hstep
  have hnear : |t - r * step| ≤ step / 2 := abs_le.mpr ⟨by linarith, by linarith⟩
  have hmul : ∀ {a b : ℤ}, a ≤ b → (a : ℚ) * step ≤ b * step := fun hab =>
    mul_le_mul_of_nonneg_right (by exact_mod_cast hab) hpos.le
  rcases lt_or_gt_of_ne hne with hlt | hgt
  · have hfar := hmul (show k ≤ r - 1 by omega)
    push_cast at hfar
    have habs := le_abs_self (t - k * step)
    refine ⟨by linarith, fun heq => .inr ⟨by linarith, ?_⟩⟩
    by_contra hnext
    have hfarther := hmul (show k ≤ r - 2 by omega)
    push_cast at hfarther
    linarith
  · have hfar := hmul (show (r : ℤ) + 1 ≤ k by omega)
    push_cast at hfar
    have habs := neg_abs_le (t - k * step)
    refine ⟨by linarith, fun heq => .inl ⟨by linarith, ?_⟩⟩
    by_contra hnext
    have hfarther := hmul (show (r : ℤ) + 2 ≤ k by omega)
    push_cast at hfarther
    linarith

/-- A number that reaches a multiple of a step is rounded to this multiple or a larger one. -/
theorem RoundsTo.le_of_mul_le (hrounds : RoundsTo t step r) (hstep : 0 < step)
    (hle : ((m * step : ℕ) : ℚ) ≤ t) : m ≤ r := by
  by_contra hlt
  have hbelow := hrounds.below
  have hpos : (0 : ℚ) < step := by exact_mod_cast hstep
  have hnext : (((r + 1) * step : ℕ) : ℚ) ≤ (m * step : ℕ) := by
    exact_mod_cast Nat.mul_le_mul_right step (not_le.mp hlt)
  push_cast at hnext hle
  linarith

/-- A number that does not exceed a multiple of a step is rounded to this multiple or a smaller
one. -/
theorem RoundsTo.le_of_le_mul (hrounds : RoundsTo t step r) (hstep : 0 < step)
    (hle : t ≤ (m * step : ℕ)) : r ≤ m := by
  by_contra hlt
  have habove := hrounds.above
  have hpos : (0 : ℚ) < step := by exact_mod_cast hstep
  have hnext : (((m + 1) * step : ℕ) : ℚ) ≤ (r * step : ℕ) := by
    exact_mod_cast Nat.mul_le_mul_right step (not_le.mp hlt)
  push_cast at hnext hle
  linarith

/-- The gap to the next multiple fits into an even multiple an even number of times. -/
theorem two_mul_sub_dvd {k : ℤ} (heven : 2 ∣ r) (hnext : k = r + 1 ∨ k = r - 1) :
    2 * (step * k - (r * step : ℕ)) ∣ ((r * step : ℕ) : ℤ) := by
  obtain ⟨half, rfl⟩ := heven
  rcases hnext with rfl | rfl
  · exact ⟨half, by push_cast; ring⟩
  · exact ⟨-half, by push_cast; ring⟩

/-- A double is nearest to a number if the number is rounded to it in steps, and if the number
reaches a multiple of the step below which all doubles are that are no multiples. -/
theorem RoundsTo.isNearest {value : ℚ} (hrounds : RoundsTo (inUnits value) step r)
    (hstep : 0 < step) (low : ℕ) (hdouble : IsDouble (r * step : ℕ))
    (hlow : ((low * step : ℕ) : ℚ) ≤ inUnits value)
    (hfiner : ∀ units, IsDouble units → ¬ (step : ℤ) ∣ units → units < (low * step : ℕ)) :
    IsNearest value ⟨(r * step : ℕ)⟩ := by
  have hnearest : ∀ k : ℤ, |inUnits value - r * step| ≤ |inUnits value - k * step| := by
    intro k
    by_cases hk : k = r
    · rw [hk, Int.cast_natCast]
    · exact (hrounds.abs_sub_le hstep hk).1
  -- What is no multiple is farther away than the multiple that is below the number.
  have hfar : ∀ units, IsDouble units → ¬ (step : ℤ) ∣ units →
      |inUnits value - r * step| < |inUnits value - units| := by
    intro units hunits hdvd
    have hlt : (units : ℚ) < (low * step : ℕ) := by exact_mod_cast hfiner units hunits hdvd
    have hle := hnearest low
    rw [Nat.cast_mul] at hlow hlt
    rw [Int.cast_natCast, abs_of_nonneg (sub_nonneg.mpr hlow)] at hle
    have habs := le_abs_self (inUnits value - units)
    linarith
  refine ⟨hdouble, fun units hunits => ?_, fun units hunits hne heq => ?_⟩
  · rw [distance, distance]
    push_cast
    by_cases hdvd : (step : ℤ) ∣ units
    · obtain ⟨k, rfl⟩ := hdvd
      rw [mul_comm (step : ℤ), Int.cast_mul, Int.cast_natCast]
      exact hnearest k
    · exact (hfar units hunits hdvd).le
  · rw [distance, distance] at heq
    push_cast at heq
    by_cases hdvd : (step : ℤ) ∣ units
    · obtain ⟨k, rfl⟩ := hdvd
      have hk : k ≠ r := by
        rintro rfl
        exact hne (by push_cast; ring)
      rw [mul_comm (step : ℤ), Int.cast_mul, Int.cast_natCast] at heq
      have hgap := (hrounds.abs_sub_le hstep hk).2 heq
      have heven := hrounds.even (hgap.imp And.left And.left)
      exact two_mul_sub_dvd heven (hgap.imp And.right And.right)
    · exact absurd heq (hfar units hunits hdvd).ne'

end Grid

/-! ## The gap between doubles -/

section Gap

/-- A double that has bits below a power of two is less than this power with 52 bits behind it. -/
theorem IsDouble.dvd_or_lt {units : Int} (hunits : IsDouble units) (k : ℕ) :
    ((2 ^ k : ℕ) : ℤ) ∣ units ∨ units < (2 ^ 52 * 2 ^ k : ℕ) := by
  obtain ⟨_, significand, exponent, hsignificand, heq⟩ := hunits
  rcases le_or_gt k exponent with hle | hlt
  · left
    rw [Int.natCast_dvd, heq]
    exact (pow_dvd_pow 2 hle).mul_left significand
  · right
    have hpow : 2 ^ (exponent + 1) ≤ 2 ^ k := Nat.pow_le_pow_right (by decide) hlt
    have hbits : significand * 2 ^ exponent < 2 ^ 53 * 2 ^ exponent :=
      Nat.mul_lt_mul_of_pos_right hsignificand (by positivity)
    rw [pow_succ] at hpow
    omega

/-- The gap is a power of two in which a magnitude is counted with 53 bits, all of them used unless
the gap is one unit. -/
theorem gap_spec (whole : ℕ) :
    ∃ k, gap whole = 2 ^ k ∧ whole < 2 ^ 53 * 2 ^ k ∧ (k = 0 ∨ 2 ^ 52 * 2 ^ k ≤ whole) := by
  refine ⟨whole.log2 + 1 - 53, rfl, ?_, ?_⟩
  · have hlt : whole < 2 ^ (whole.log2 + 1) := Nat.lt_log2_self
    rw [← pow_add]
    exact hlt.trans_le (Nat.pow_le_pow_right (by decide) (by omega))
  · rcases Nat.lt_or_ge whole.log2 53 with hlt | hge
    · exact .inl (by omega)
    · right
      have hne : whole ≠ 0 := by
        rintro rfl
        simp at hge
      have hle : 2 ^ whole.log2 ≤ whole := Nat.log2_self_le hne
      rwa [← pow_add, show 52 + (whole.log2 + 1 - 53) = whole.log2 by omega]

end Gap

/-! ## Rounding computes what is nearest -/

section Magnitude

theorem ceiling_eq : ceiling = 2 ^ 2098 := by
  -- With the number in its place, the power would be computed.
  generalize hexponent : 2098 = exponent
  unfold ceiling
  rw [hexponent]
  rfl

theorem pow_le_ceiling_iff {exponent : ℕ} : 2 ^ exponent ≤ ceiling ↔ exponent ≤ 2098 := by
  rw [ceiling_eq, Nat.pow_le_pow_iff_right (by decide)]

theorem ceiling_le_pow_iff {exponent : ℕ} : ceiling ≤ 2 ^ exponent ↔ 2098 ≤ exponent := by
  rw [ceiling_eq, Nat.pow_le_pow_iff_right (by decide)]

theorem ceiling_lt_pow_iff {exponent : ℕ} : ceiling < 2 ^ exponent ↔ 2098 < exponent := by
  rw [ceiling_eq, Nat.pow_lt_pow_iff_right (by decide)]

/-- What reaches the ceiling is infinite: all doubles are below it. -/
theorem isNearest_ceiling {value : ℚ} (hle : (ceiling : ℚ) ≤ inUnits value) :
    IsNearest value ⟨ceiling⟩ := by
  have hbelow : ∀ units, IsDouble units → (units : ℚ) ≤ ceiling := by
    intro units hunits
    have h := hunits.1
    exact_mod_cast (show units ≤ ceiling by omega)
  have hdistance : ∀ units, IsDouble units → distance value units = inUnits value - units :=
    fun units hunits => abs_of_nonneg (sub_nonneg.mpr ((hbelow units hunits).trans hle))
  have hceiling : IsDouble ceiling := by
    refine ⟨(Int.natAbs_natCast _).le, 1, 2098, by decide, ?_⟩
    rw [Int.natAbs_natCast, ceiling_eq, one_mul]
  refine ⟨hceiling, fun units hunits => ?_, fun units hunits hne heq => ?_⟩
  · rw [hdistance _ hceiling, hdistance _ hunits]
    have h := hbelow units hunits
    push_cast
    linarith
  · rw [hdistance _ hceiling, hdistance _ hunits] at heq
    push_cast at heq
    have hsame : (units : ℚ) = (ceiling : ℕ) := by linarith
    exact absurd (by exact_mod_cast hsame) hne

/-- A magnitude of 53 bits with zeros behind them belongs to a double, and so does the first one
that has a bit more. -/
theorem isDouble_of_natAbs_eq {units : Int} {r k : ℕ} (hunits : units.natAbs = r * 2 ^ k)
    (hr : r ≤ 2 ^ 53) (hle : r * 2 ^ k ≤ ceiling) : IsDouble units := by
  rw [IsDouble, hunits]
  refine ⟨hle, ?_⟩
  rcases hr.lt_or_eq with hlt | rfl
  · exact ⟨r, k, hlt, rfl⟩
  · exact ⟨1, 53 + k, by decide, by rw [one_mul, pow_add]⟩

variable {denominator step : ℕ}

/-- A quotient by a step is rounded to multiples of this step. -/
theorem roundsTo_roundHalfEven (scaled : ℕ) (hpos : 0 < denominator) (hstep : 0 < step) :
    RoundsTo ((scaled : ℚ) / denominator) step (roundHalfEven scaled (denominator * step)) := by
  obtain ⟨hbelow, habove, heven⟩ := roundHalfEven_spec scaled (Nat.mul_pos hpos hstep)
  generalize roundHalfEven scaled (denominator * step) = rounded at *
  have hdenominator : (0 : ℚ) < denominator := by exact_mod_cast hpos
  have hbelow : (2 * scaled : ℚ) ≤ 2 * (rounded * (denominator * step)) + denominator * step := by
    exact_mod_cast hbelow
  have habove : (2 * (rounded * (denominator * step)) : ℚ) ≤ 2 * scaled + denominator * step := by
    exact_mod_cast habove
  refine ⟨?_, ?_, fun hhalf => heven ?_⟩
  · rw [div_le_iff₀ hdenominator]
    linarith
  · rw [le_div_iff₀ hdenominator]
    linarith
  · rw [div_eq_iff hdenominator.ne', div_eq_iff hdenominator.ne'] at hhalf
    refine hhalf.imp (fun h => ?_) fun h => ?_
    · have h : (2 * scaled : ℚ) = 2 * (rounded * (denominator * step)) + denominator * step := by
        linarith
      exact_mod_cast h
    · have h : (2 * (rounded * (denominator * step)) : ℚ) = 2 * scaled + denominator * step := by
        linarith
      exact_mod_cast h

/-- The whole part of a quotient, and its next natural, are on its two sides. -/
theorem whole_le_and_lt (scaled : ℕ) (hpos : 0 < denominator) :
    ((scaled / denominator : ℕ) : ℚ) ≤ (scaled : ℚ) / denominator ∧
      (scaled : ℚ) / denominator < (scaled / denominator : ℕ) + 1 := by
  have hdenominator : (0 : ℚ) < denominator := by exact_mod_cast hpos
  rw [le_div_iff₀ hdenominator, div_lt_iff₀ hdenominator]
  constructor
  · exact_mod_cast Nat.div_mul_le_self scaled denominator
  · exact_mod_cast (Nat.div_lt_iff_lt_mul hpos).mp (Nat.lt_succ_self (scaled / denominator))

section Ceiling

variable {t : ℚ} {whole r k : ℕ}

/-- What reaches the ceiling does so after rounding, as all 53 bits are used there. -/
theorem RoundsTo.ceiling_le (hrounds : RoundsTo t (2 ^ k) r) (hle : ceiling ≤ whole)
    (hbits : whole < 2 ^ 53 * 2 ^ k) (hfull : k = 0 ∨ 2 ^ 52 * 2 ^ k ≤ whole)
    (hwhole : (whole : ℚ) ≤ t) : ceiling ≤ r * 2 ^ k := by
  have hexponent : 2098 < 53 + k := by
    rw [← ceiling_lt_pow_iff, pow_add]
    exact hle.trans_lt hbits
  have hlow : 2 ^ 52 * 2 ^ k ≤ whole := hfull.resolve_left (by omega)
  have hr : 2 ^ 52 ≤ r :=
    hrounds.le_of_mul_le (by positivity) (le_trans (by exact_mod_cast hlow) hwhole)
  calc ceiling ≤ 2 ^ (52 + k) := ceiling_le_pow_iff.mpr (by omega)
    _ = 2 ^ 52 * 2 ^ k := pow_add 2 52 k
    _ ≤ r * 2 ^ k := Nat.mul_le_mul_right (2 ^ k) hr

/-- What is below the ceiling is not beyond it after rounding, as the ceiling is a multiple of the
gap. -/
theorem RoundsTo.le_ceiling (hrounds : RoundsTo t (2 ^ k) r) (hlt : whole < ceiling)
    (hfull : k = 0 ∨ 2 ^ 52 * 2 ^ k ≤ whole) (hwhole : t < whole + 1) :
    r * 2 ^ k ≤ ceiling := by
  have hexponent : k ≤ 2098 := by
    rcases hfull with hzero | hlow
    · omega
    · rw [← pow_add] at hlow
      have hle := pow_le_ceiling_iff.mp (hlow.trans hlt.le)
      omega
  obtain ⟨m, hm⟩ : 2 ^ k ∣ ceiling := by simpa only [ceiling_eq] using pow_dvd_pow 2 hexponent
  rw [mul_comm] at hm
  have hle : t ≤ (m * 2 ^ k : ℕ) := by
    refine hwhole.le.trans ?_
    rw [← hm]
    exact_mod_cast hlt
  rw [hm]
  exact Nat.mul_le_mul_right (2 ^ k) (hrounds.le_of_le_mul (by positivity) hle)

end Ceiling

/-- What is rounded to 53 bits, and to infinity from the ceiling on, is nearest. -/
theorem isNearest_of_inUnits {value : ℚ} {scaled : ℕ} (hpos : 0 < denominator)
    (hvalue : inUnits value = (scaled : ℚ) / denominator) :
    IsNearest value ⟨(min (roundHalfEven scaled (denominator * gap (scaled / denominator)) *
      gap (scaled / denominator)) ceiling : ℕ)⟩ := by
  obtain ⟨k, hgap, hbits, hfull⟩ := gap_spec (scaled / denominator)
  obtain ⟨hwhole, hwhole_lt⟩ := whole_le_and_lt scaled hpos
  rw [hgap]
  have hstep : 0 < 2 ^ k := by positivity
  have hrounds := roundsTo_roundHalfEven scaled hpos hstep
  rw [← hvalue] at hwhole hwhole_lt hrounds
  generalize scaled / denominator = whole at *
  generalize roundHalfEven scaled (denominator * 2 ^ k) = r at *
  rcases le_or_gt ceiling whole with hle | hlt
  · rw [min_eq_right (hrounds.ceiling_le hle hbits hfull hwhole)]
    exact isNearest_ceiling (le_trans (by exact_mod_cast hle) hwhole)
  · have hr : r ≤ 2 ^ 53 := by
      refine hrounds.le_of_le_mul hstep (hwhole_lt.le.trans ?_)
      exact_mod_cast hbits
    have hceiling := hrounds.le_ceiling hlt hfull hwhole_lt
    have hdouble := isDouble_of_natAbs_eq (Int.natAbs_natCast _) hr hceiling
    rw [min_eq_left hceiling]
    rcases hfull with rfl | hlow
    · -- Every double is a whole number of units.
      refine hrounds.isNearest hstep 0 hdouble ?_ ?_
      · rw [Nat.zero_mul, Nat.cast_zero]
        exact le_trans (Nat.cast_nonneg whole) hwhole
      · intro units _ hdvd
        exact absurd (by simp) hdvd
    · refine hrounds.isNearest hstep (2 ^ 52) hdouble ?_ ?_
      · exact le_trans (by exact_mod_cast hlow) hwhole
      · intro units hunits hdvd
        exact (hunits.dvd_or_lt k).resolve_left hdvd

/-- The magnitude of a quotient is the double nearest to it. -/
theorem isNearest_magnitude (numerator : ℕ) (hpos : 0 < denominator) :
    IsNearest ((numerator : ℚ) / denominator) ⟨magnitude numerator denominator⟩ := by
  have hunits : inUnits ((numerator : ℚ) / denominator) =
      ((numerator * Nat.pow 2 1074 : ℕ) : ℚ) / denominator := by
    unfold inUnits
    generalize 1074 = exponent
    rw [Nat.pow_eq, div_mul_eq_mul_div, Nat.cast_mul, Nat.cast_pow, Nat.cast_ofNat]
  exact isNearest_of_inUnits hpos hunits

end Magnitude

/-- What is less than half a unit is rounded to zero. -/
theorem isNearest_zero {value : ℚ} (hlt : |inUnits value| < 1 / 2) : IsNearest value ⟨0⟩ := by
  have hfar : ∀ units : Int, units ≠ 0 → |inUnits value - (0 : Int)| < |inUnits value - units| := by
    intro units hunits
    have hone : (1 : ℚ) ≤ |(units : ℚ)| := by exact_mod_cast Int.one_le_abs hunits
    have htriangle := abs_sub_abs_le_abs_sub (units : ℚ) (inUnits value)
    rw [abs_sub_comm] at htriangle
    rw [Int.cast_zero, sub_zero]
    linarith
  refine ⟨⟨Nat.zero_le _, 0, 0, by decide, rfl⟩, fun units _ => ?_, fun units _ _ _ => dvd_zero _⟩
  by_cases hunits : units = 0
  · rw [hunits]
  · exact (hfar units hunits).le

/-! ## Decimals -/

section Decimals

variable {mantissa : ℕ} {scale : Int}

/-- Three bits fit into a decimal digit. -/
theorem pow_two_le_pow_ten {bits digits : ℕ} (hle : bits ≤ 3 * digits) :
    (2 : ℚ) ^ bits ≤ 10 ^ digits := by
  calc (2 : ℚ) ^ bits ≤ 2 ^ (3 * digits) := pow_le_pow_right₀ (by norm_num) hle
    _ = (2 ^ 3) ^ digits := pow_mul 2 3 digits
    _ ≤ 10 ^ digits := pow_le_pow_left₀ (by norm_num) (by norm_num) digits

/-- The ceiling is `2 ^ 1024`. -/
theorem ceiling_le_inUnits_iff {value : ℚ} : (ceiling : ℚ) ≤ inUnits value ↔ 2 ^ 1024 ≤ value := by
  have hsplit : 2098 = 1024 + 1074 := rfl
  rw [ceiling_eq, hsplit]
  unfold inUnits
  generalize 1024 = exponent
  generalize 1074 = unit
  rw [pow_add, Nat.cast_mul, Nat.cast_pow, Nat.cast_pow, Nat.cast_ofNat]
  exact mul_le_mul_iff_left₀ (by positivity)

/-- From `10 ^ 400` on all numbers are infinite. -/
theorem ceiling_le_inUnits (hmantissa : mantissa ≠ 0) (hscale : 400 ≤ scale) :
    (ceiling : ℚ) ≤ inUnits (mantissa * 10 ^ scale) := by
  have hone : (1 : ℚ) ≤ mantissa := by exact_mod_cast Nat.one_le_iff_ne_zero.mpr hmantissa
  have hbits : (2 : ℚ) ^ 1024 ≤ 10 ^ 400 := pow_two_le_pow_ten (by decide)
  rw [ceiling_le_inUnits_iff]
  generalize 1024 = bits at *
  generalize hdigits : 400 = digits at hbits
  calc (2 : ℚ) ^ bits ≤ 10 ^ digits := hbits
    _ = 10 ^ (digits : Int) := (zpow_natCast 10 digits).symm
    _ ≤ 10 ^ scale := zpow_le_zpow_right₀ (by norm_num) (by omega)
    _ ≤ mantissa * 10 ^ scale := le_mul_of_one_le_left (zpow_nonneg (by norm_num) scale) hone

/-- Below `10 ^ (-400)`, and by as many powers of ten more as the mantissa has bits, all numbers are
rounded to zero. -/
theorem abs_inUnits_lt (hscale : scale ≤ -(mantissa.log2 + 400 : Int)) :
    |inUnits (mantissa * 10 ^ scale)| < 1 / 2 := by
  have hbits : (mantissa : ℚ) < 2 ^ (mantissa.log2 + 1) := by exact_mod_cast Nat.lt_log2_self
  have hpow : (2 : ℚ) ^ (mantissa.log2 + 1 + 1074 + 1) ≤ 10 ^ (mantissa.log2 + 400) :=
    pow_two_le_pow_ten (by omega)
  have hscale : scale ≤ -((mantissa.log2 + 400 : ℕ) : Int) := by omega
  unfold inUnits
  generalize mantissa.log2 + 1 = bits at *
  generalize mantissa.log2 + 400 = digits at *
  generalize 1074 = unit at *
  rw [pow_succ, pow_add] at hpow
  have hpower : (10 : ℚ) ^ scale ≤ (10 ^ digits)⁻¹ := by
    rw [← zpow_natCast, ← zpow_neg]
    exact zpow_le_zpow_right₀ (by norm_num) hscale
  have hunit : (0 : ℚ) < 2 ^ unit := by positivity
  have hnonneg : (0 : ℚ) ≤ mantissa * 10 ^ scale * 2 ^ unit := by positivity
  rw [abs_of_nonneg hnonneg]
  calc (mantissa : ℚ) * 10 ^ scale * 2 ^ unit
      ≤ mantissa * (10 ^ digits)⁻¹ * 2 ^ unit := by gcongr
    _ = mantissa * 2 ^ unit / 10 ^ digits := by rw [div_eq_mul_inv]; ring
    _ < 1 / 2 := by
      rw [div_lt_div_iff₀ (by positivity) (by norm_num)]
      have hlt := mul_lt_mul_of_pos_right hbits hunit
      linarith

/-- A decimal is rounded as with its scale kept within bounds. -/
theorem isNearest_of_boundedScale (d : Decimal) {x : Binary64}
    (hx : IsNearest (d.mantissa * 10 ^ boundedScale d) x) :
    IsNearest (d.mantissa * 10 ^ d.scale) x := by
  have hbounded : boundedScale d = max (-(d.mantissa.log2 + 400 : Int)) (min 400 d.scale) := rfl
  rcases lt_or_ge 400 d.scale with hhigh | hhigh
  · by_cases hzero : d.mantissa = 0
    · simpa [hzero] using hx
    · have hscale : 400 ≤ boundedScale d := by omega
      rw [hx.unique (isNearest_ceiling (ceiling_le_inUnits hzero hscale))]
      exact isNearest_ceiling (ceiling_le_inUnits hzero hhigh.le)
  · rcases lt_or_ge d.scale (-(d.mantissa.log2 + 400 : Int)) with hlow | hlow
    · have hscale : boundedScale d ≤ -(d.mantissa.log2 + 400 : Int) := by omega
      rw [hx.unique (isNearest_zero (abs_inUnits_lt hscale))]
      exact isNearest_zero (abs_inUnits_lt hlow.le)
    · have hscale : boundedScale d = d.scale := by omega
      rwa [hscale] at hx

/-- A power of ten, as a quotient of naturals. -/
theorem pow_ten_eq_div (scale : Int) :
    (10 : ℚ) ^ scale = (Nat.pow 10 scale.toNat : ℕ) / (Nat.pow 10 (-scale).toNat : ℕ) := by
  rw [Nat.pow_eq, Nat.pow_eq, Nat.cast_pow, Nat.cast_pow, Nat.cast_ofNat, ← zpow_natCast,
    ← zpow_natCast, ← zpow_sub₀ (by norm_num)]
  congr 1
  omega

/-- Decimals are rounded correctly. -/
theorem isNearest_nearest (d : Decimal) : IsNearest d.toRat (nearest d) := by
  have hpos : 0 < Nat.pow 10 (-boundedScale d).toNat := Nat.pow_pos (by decide)
  have hbounded := isNearest_magnitude (d.mantissa * Nat.pow 10 (boundedScale d).toNat) hpos
  rw [Nat.cast_mul, mul_div_assoc, ← pow_ten_eq_div] at hbounded
  have hmagnitude := isNearest_of_boundedScale d hbounded
  rw [nearest, signed, Decimal.toRat]
  cases d.negative with
  | false => simpa using hmagnitude
  | true => simpa using hmagnitude.neg

end Decimals

end Binary64

end RecordQuery
