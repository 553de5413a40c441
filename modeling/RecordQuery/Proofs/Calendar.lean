import Mathlib.Order.Lattice
import Mathlib.Tactic.Common
import RecordQuery.Time.Calendar

/-!
# The order of dates

Days are counted in blocks: the years follow each other, the months do so within a year, and the
days within a month. A place in an earlier block comes first, and within one block the places are
ordered as they are counted from its beginning. So the days of the calendar follow each other as
their dates do, compared by year, month and day.
-/

namespace RecordQuery

/-! ## Counting in blocks -/

/-- What grows with a place keeps the order of places. -/
theorem compare_map {α β : Type} [LinearOrder α] [LinearOrder β] {f : α → β} (hf : StrictMono f)
    (a b : α) : compare (f a) (f b) = compare a b := by
  rw [← cmp_eq_compare, ← cmp_eq_compare, hf.cmp_map_eq]

/-- Two places are ordered as their blocks are, and within one block as they are counted from its
beginning. -/
theorem compare_start_add {start : ℕ → ℕ} (hmono : Monotone start) {a b r s : ℕ}
    (hr : start a + r < start (a + 1)) (hs : start b + s < start (b + 1)) :
    compare (start a + r) (start b + s) = (compare a b).then (compare r s) := by
  rcases lt_trichotomy a b with hlt | rfl | hgt
  · have hblock : start (a + 1) ≤ start b := hmono hlt
    rw [Nat.compare_eq_lt.mpr hlt, Nat.compare_eq_lt.mpr (by omega)]
    rfl
  · have hshift : StrictMono (start a + ·) := fun _ _ hlt => Nat.add_lt_add_left hlt _
    rw [Nat.compare_eq_eq.mpr rfl, Ordering.eq_then]
    exact compare_map hshift r s
  · have hblock : start (b + 1) ≤ start a := hmono hgt
    rw [Nat.compare_eq_gt.mpr hgt, Nat.compare_eq_gt.mpr (by omega)]
    rfl

/-- The same where all blocks have the same size. -/
theorem compare_mul_add {size a b r s : ℕ} (hr : r < size) (hs : s < size) :
    compare (size * a + r) (size * b + s) = (compare a b).then (compare r s) := by
  have hmono : Monotone fun block => size * block := fun _ _ hle => Nat.mul_le_mul_left size hle
  exact compare_start_add hmono (Nat.add_lt_add_left hr _) (Nat.add_lt_add_left hs _)

namespace Calendar

/-! ## Years and months -/

section Blocks

variable {year month : ℕ}

/-- Rounded up, a quotient grows where the dividend was a multiple. -/
theorem succ_add_div {denominator : ℕ} (hpos : 0 < denominator) (n : ℕ) :
    (n + 1 + (denominator - 1)) / denominator =
      (n + (denominator - 1)) / denominator + if n % denominator = 0 then 1 else 0 := by
  have hshift : n + 1 + (denominator - 1) = n + (denominator - 1) + 1 := by omega
  have hdvd : denominator ∣ n + (denominator - 1) + 1 ↔ n % denominator = 0 := by
    have hsum : n + (denominator - 1) + 1 = n + denominator := by omega
    rw [hsum, Nat.dvd_add_self_right, Nat.dvd_iff_mod_eq_zero]
  rw [hshift, Nat.succ_div, if_congr hdvd rfl rfl]

theorem daysBeforeYear_succ (year : ℕ) :
    daysBeforeYear (year + 1) = daysBeforeYear year + if isLeap year then 366 else 365 := by
  have hfours := succ_add_div (show 0 < 4 by decide) year
  have hhundreds := succ_add_div (show 0 < 100 by decide) year
  have hcycles := succ_add_div (show 0 < 400 by decide) year
  have hle : (year + (100 - 1)) / 100 ≤ (year + (4 - 1)) / 4 := by omega
  have hhundred : year % 100 = 0 → year % 4 = 0 := by omega
  have hcycle : year % 400 = 0 → year % 100 = 0 := by omega
  have hleap : isLeap year = true ↔ year % 4 = 0 ∧ (year % 100 ≠ 0 ∨ year % 400 = 0) := by
    simp [isLeap]
  unfold daysBeforeYear
  rw [hfours, hhundreds, hcycles]
  simp only [hleap]
  generalize (year + (4 - 1)) / 4 = fours at *
  generalize (year + (100 - 1)) / 100 = hundreds at *
  generalize (year + (400 - 1)) / 400 = cycles at *
  clear hfours hhundreds hcycles
  generalize year % 4 = inFour at *
  generalize year % 100 = inHundred at *
  generalize year % 400 = inCycle at *
  split_ifs <;> omega

theorem daysBeforeYear_monotone : Monotone daysBeforeYear := by
  refine monotone_nat_of_le_succ fun year => ?_
  rw [daysBeforeYear_succ]
  exact Nat.le_add_right _ _

theorem daysBeforeMonth_succ (year month : ℕ) :
    daysBeforeMonth year (month + 1) = daysBeforeMonth year month + monthLength year month := by
  rw [daysBeforeMonth, List.range_succ, List.foldl_append]
  rfl

theorem daysBeforeMonth_monotone (year : ℕ) : Monotone (daysBeforeMonth year) := by
  refine monotone_nat_of_le_succ fun month => ?_
  rw [daysBeforeMonth_succ]
  exact Nat.le_add_right _ _

/-- The twelve months fill the year. -/
theorem daysBeforeYear_add_daysBeforeMonth (year : ℕ) :
    daysBeforeYear year + daysBeforeMonth year 13 = daysBeforeYear (year + 1) := by
  rw [daysBeforeYear_succ]
  simp only [daysBeforeMonth_succ]
  simp [daysBeforeMonth, monthLength]
  split_ifs <;> rfl

/-- A month that has days is one of the twelve. -/
theorem month_le_of_monthLength_pos (hpos : 0 < monthLength year month) : month ≤ 12 := by
  by_contra hlt
  have hzero : monthLength year month = 0 := by
    unfold monthLength
    split <;> omega
  omega

theorem monthLength_le (year month : ℕ) : monthLength year month ≤ 31 := by
  unfold monthLength
  split <;> first | decide | (split_ifs <;> decide)

end Blocks

/-- A day of the calendar. Only the twelve months have days. -/
structure Date where
  year : ℕ
  month : ℕ
  day : ℕ
  one_le_day : 1 ≤ day
  day_le : day ≤ monthLength year month

namespace Date

/-- The number of days before a date. -/
def number (date : Date) : ℕ :=
  dayNumber date.year date.month date.day

/-- The number of days of its year before a date. -/
def ofYear (date : Date) : ℕ :=
  daysBeforeMonth date.year date.month + (date.day - 1)

variable (date other : Date)

theorem number_eq : date.number = daysBeforeYear date.year + date.ofYear :=
  Nat.add_assoc _ _ _

theorem month_le : date.month ≤ 12 :=
  month_le_of_monthLength_pos (date.one_le_day.trans date.day_le)

/-- The months of a year do not overlap. -/
theorem ofYear_lt_daysBeforeMonth :
    date.ofYear < daysBeforeMonth date.year (date.month + 1) := by
  have hone := date.one_le_day
  have hle := date.day_le
  rw [daysBeforeMonth_succ, ofYear]
  omega

/-- The years do not overlap. -/
theorem number_lt_daysBeforeYear : date.number < daysBeforeYear (date.year + 1) := by
  have hmonth := date.ofYear_lt_daysBeforeMonth
  have hyear : daysBeforeMonth date.year (date.month + 1) ≤ daysBeforeMonth date.year 13 :=
    daysBeforeMonth_monotone date.year (Nat.succ_le_succ date.month_le)
  rw [number_eq, ← daysBeforeYear_add_daysBeforeMonth]
  omega

/-- Within a year, days follow each other as month and day do. -/
theorem compare_ofYear (hyear : date.year = other.year) :
    compare date.ofYear other.ofYear =
      (compare date.month other.month).then (compare date.day other.day) := by
  have hother := other.ofYear_lt_daysBeforeMonth
  have hday : compare date.day other.day = compare (date.day - 1) (other.day - 1) := by
    have hshift : StrictMono fun day : ℕ => day + 1 := fun _ _ => Nat.succ_lt_succ
    rw [← compare_map hshift (date.day - 1), Nat.sub_add_cancel date.one_le_day,
      Nat.sub_add_cancel other.one_le_day]
  rw [ofYear, ← hyear] at hother
  rw [ofYear, ofYear, ← hyear, hday]
  exact compare_start_add (daysBeforeMonth_monotone _) date.ofYear_lt_daysBeforeMonth hother

/-- Days follow each other as their dates do, compared by year, month and day. -/
theorem compare_number :
    compare date.number other.number =
      (compare date.year other.year).then
        ((compare date.month other.month).then (compare date.day other.day)) := by
  have hdate := date.number_lt_daysBeforeYear
  have hother := other.number_lt_daysBeforeYear
  rw [number_eq] at hdate hother
  rw [number_eq, number_eq, compare_start_add daysBeforeYear_monotone hdate hother]
  cases hyear : compare date.year other.year with
  | lt => rfl
  | gt => rfl
  | eq => rw [date.compare_ofYear other (Nat.compare_eq_eq.mp hyear)]

end Date

end Calendar

end RecordQuery
