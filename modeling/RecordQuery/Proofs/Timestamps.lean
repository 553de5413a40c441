import Mathlib.Algebra.Ring.Nat
import Mathlib.Data.Char
import RecordQuery.Proofs.Calendar
import RecordQuery.Proofs.PathGrammar
import RecordQuery.Proofs.ValueOrder

/-!
# Timestamps in universal time

A timestamp in universal time that has all its digits, and as many digits behind the point as
another one, is ordered with the other one by instant as it is by text: from the year down to the
fraction of a second, the first number that differs decides. Leap seconds are no exception. They are
held as nanoseconds beyond the second before them, behind all fractions of that second and before
the next one.
-/

namespace RecordQuery

/-! ## Numbers of fixed width -/

/-- The last digits of a number, as many as given, with zeros in front where it has fewer. -/
def fixedDigits : ℕ → ℕ → List Char
  | 0, _ => []
  | width + 1, n => fixedDigits width (n / 10) ++ [Nat.digitChar (n % 10)]

/-- Lists are compared in their front parts first if these are equally long. -/
theorem compare_append {α : Type} [Ord α] {front other : List α}
    (hlength : front.length = other.length) (u v : List α) :
    compare (front ++ u) (other ++ v) = (compare front other).then (compare u v) := by
  induction front generalizing other with
  | nil =>
    rw [List.length_eq_zero_iff.mp hlength.symm]
    rfl
  | cons c front ih =>
    cases other with
    | nil => cases hlength
    | cons d other =>
      rw [List.cons_append, List.cons_append, List.compare_cons_cons, List.compare_cons_cons,
        ih (Nat.succ.inj hlength), Ordering.then_assoc]

/-- What two texts have in common at their head does not count. -/
theorem compare_cons_self (c : Char) (u v : List Char) :
    compare (c :: u) (c :: v) = compare u v := by
  rw [List.compare_cons_cons, Std.ReflOrd.compare_self, Ordering.eq_then]

section FixedDigits

variable {width m n : ℕ} {c : Char}

theorem length_fixedDigits (width n : ℕ) : (fixedDigits width n).length = width := by
  induction width generalizing n with
  | zero => rfl
  | succ width ih => rw [fixedDigits, List.length_append, ih, List.length_singleton]

theorem isDigit_of_mem_fixedDigits (hmem : c ∈ fixedDigits width n) : c.isDigit = true := by
  induction width generalizing n with
  | zero => cases hmem
  | succ width ih =>
    rcases List.mem_append.mp hmem with hfront | hlast
    · exact ih hfront
    · rw [List.mem_singleton.mp hlast, Nat.isDigit_digitChar, decide_eq_true_eq]
      exact Nat.mod_lt n (by decide)

/-- Without its last digit, a number has one digit less. -/
theorem div_ten_lt (hlt : n < 10 ^ (width + 1)) : n / 10 < 10 ^ width := by
  rw [Nat.div_lt_iff_lt_mul (by decide), ← Nat.pow_succ]
  exact hlt

/-- If a number has not more digits, these spell it. -/
theorem digitsValue_fixedDigits (hlt : n < 10 ^ width) :
    Number.digitsValue (fixedDigits width n) = n := by
  induction width generalizing n with
  | zero =>
    rw [Nat.pow_zero, Nat.lt_one_iff] at hlt
    rw [hlt]
    rfl
  | succ width ih =>
    have hdigit : (n % 10).digitChar.toNat - '0'.toNat = n % 10 :=
      Nat.toNat_digitChar_sub_48_of_lt_ten (Nat.mod_lt n (by decide))
    rw [fixedDigits, digitsValue_append_singleton, ih (div_ten_lt hlt), hdigit, Nat.div_add_mod]

/-- Numbers of the same width are ordered as their digits are. -/
theorem compare_fixedDigits (hm : m < 10 ^ width) (hn : n < 10 ^ width) :
    compare (fixedDigits width m) (fixedDigits width n) = compare m n := by
  induction width generalizing m n with
  | zero =>
    rw [Nat.pow_zero, Nat.lt_one_iff] at hm hn
    rw [hm, hn]
    rfl
  | succ width ih =>
    have hdigit : ∀ a < 10, ∀ b < 10,
        compare [Nat.digitChar a] [Nat.digitChar b] = compare a b := by decide
    have hmlast : m % 10 < 10 := Nat.mod_lt m (by decide)
    have hnlast : n % 10 < 10 := Nat.mod_lt n (by decide)
    have hlength : (fixedDigits width (m / 10)).length = (fixedDigits width (n / 10)).length := by
      rw [length_fixedDigits, length_fixedDigits]
    calc compare (fixedDigits (width + 1) m) (fixedDigits (width + 1) n)
        = (compare (m / 10) (n / 10)).then (compare (m % 10) (n % 10)) := by
          rw [fixedDigits, fixedDigits, compare_append hlength,
            ih (div_ten_lt hm) (div_ten_lt hn), hdigit _ hmlast _ hnlast]
      _ = compare m n := by
          rw [← compare_mul_add hmlast hnlast, Nat.div_add_mod, Nat.div_add_mod]

/-- Texts that begin with numbers of the same width are ordered by these first. -/
theorem compare_fixedDigits_append (hm : m < 10 ^ width) (hn : n < 10 ^ width) (u v : List Char) :
    compare (fixedDigits width m ++ u) (fixedDigits width n ++ v) =
      (compare m n).then (compare u v) := by
  have hlength : (fixedDigits width m).length = (fixedDigits width n).length := by
    rw [length_fixedDigits, length_fixedDigits]
  rw [compare_append hlength, compare_fixedDigits hm hn]

end FixedDigits

/-! ## Bytes -/

namespace Text

/-- The bytes that encode a text, as numbers. -/
def bytes (text : String) : List ℕ :=
  text.toUTF8.data.toList.map UInt8.toNat

/-- A character of ASCII is encoded by the byte of its code point. -/
theorem map_utf8EncodeChar {c : Char} (hascii : c.toNat < 128) :
    (String.utf8EncodeChar c).map UInt8.toNat = [c.toNat] := by
  have hval : c.val.toNat < 128 := hascii
  have hsize : c.utf8Size = 1 := by
    rw [Char.utf8Size_eq_one_iff, UInt32.le_iff_toNat_le]
    exact Nat.le_of_lt_succ hval
  have hbyte : c.val.toUInt8.toNat = c.toNat := by
    rw [UInt32.toNat_toUInt8]
    exact Nat.mod_eq_of_lt (by omega)
  rw [String.utf8EncodeChar_eq_singleton hsize, List.map_singleton, hbyte]

theorem bytes_ofList {text : List Char} (hascii : ∀ c ∈ text, c.toNat < 128) :
    bytes (String.ofList text) = text.map Char.toNat := by
  rw [bytes, String.toUTF8_eq_toByteArray, String.toByteArray_ofList, List.utf8Encode,
    List.data_toByteArray, Array.toList, List.map_flatMap, List.map_eq_flatMap]
  exact List.flatMap_congr fun c hc => map_utf8EncodeChar (hascii c hc)

theorem compare_map_toNat (u v : List Char) :
    compare (u.map Char.toNat) (v.map Char.toNat) = compare u v := by
  have hmono : StrictMono Char.toNat := fun _ _ hlt => hlt
  induction u generalizing v with
  | nil => cases v <;> rfl
  | cons c u ih =>
    cases v with
    | nil => rfl
    | cons d v =>
      rw [List.map_cons, List.map_cons, List.compare_cons_cons, List.compare_cons_cons, ih,
        compare_map hmono]

end Text

/-! ## Timestamps and their texts -/

/-- A date and a time of day, to a fraction of a second with as many digits as given. The year has
four digits, and in any minute there may be a second numbered 60. -/
structure Stamp (width : ℕ) extends Calendar.Date where
  hour : ℕ
  minute : ℕ
  second : ℕ
  fraction : ℕ
  year_lt : year < 10 ^ 4
  hour_le : hour ≤ 23
  minute_le : minute ≤ 59
  second_le : second ≤ 60
  fraction_lt : fraction < 10 ^ width

namespace Stamp

/-- The fraction of a second behind its point. Without digits there is no point. -/
def fractionChars : {width : ℕ} → Stamp width → List Char
  | 0, _ => []
  | width + 1, s => '.' :: fixedDigits (width + 1) s.fraction

variable {width : ℕ} (s t : Stamp width)

/-- The characters of a timestamp in universal time. -/
def chars : List Char :=
  fixedDigits 4 s.year ++ '-' :: (fixedDigits 2 s.month ++ '-' :: (fixedDigits 2 s.day ++ 'T' ::
    (fixedDigits 2 s.hour ++ ':' :: (fixedDigits 2 s.minute ++ ':' :: (fixedDigits 2 s.second ++
      (s.fractionChars ++ ['Z']))))))

/-- A timestamp as `2024-01-31T12:00:00Z` or `2024-01-31T12:00:00.500Z`. -/
def text : String :=
  String.ofList s.chars

/-- The instant at which clocks show a timestamp in universal time. -/
def instant : Instant :=
  .ofClock s.year s.month s.day s.hour s.minute s.second (s.fraction * 10 ^ (9 - width)) 0

/-- The order of timestamps by their numbers, from the year down to the fraction of a second. -/
def order : Ordering :=
  (compare s.year t.year).then ((compare s.month t.month).then ((compare s.day t.day).then
    ((compare s.hour t.hour).then ((compare s.minute t.minute).then
      ((compare s.second t.second).then (compare s.fraction t.fraction))))))

theorem month_lt : s.month < 10 ^ 2 :=
  s.month_le.trans_lt (by decide)

theorem day_lt : s.day < 10 ^ 2 :=
  (s.day_le.trans (Calendar.monthLength_le s.year s.month)).trans_lt (by decide)

theorem hour_lt : s.hour < 10 ^ 2 :=
  s.hour_le.trans_lt (by decide)

theorem minute_lt : s.minute < 10 ^ 2 :=
  s.minute_le.trans_lt (by decide)

theorem second_lt : s.second < 10 ^ 2 :=
  s.second_le.trans_lt (by decide)

/-! ### The order of texts -/

theorem compare_fractionChars :
    compare (s.fractionChars ++ ['Z']) (t.fractionChars ++ ['Z']) =
      compare s.fraction t.fraction := by
  cases width with
  | zero =>
    have hs : s.fraction = 0 := Nat.lt_one_iff.mp s.fraction_lt
    have ht : t.fraction = 0 := Nat.lt_one_iff.mp t.fraction_lt
    rw [hs, ht]
    rfl
  | succ width =>
    rw [fractionChars, fractionChars, List.cons_append, List.cons_append, compare_cons_self,
      compare_fixedDigits_append s.fraction_lt t.fraction_lt, compare_cons_self]
    exact Ordering.then_eq

/-- Texts are ordered by the numbers in them. -/
theorem compare_chars : compare s.chars t.chars = s.order t := by
  simp only [chars, order, compare_cons_self, compare_fractionChars,
    compare_fixedDigits_append s.year_lt t.year_lt,
    compare_fixedDigits_append s.month_lt t.month_lt,
    compare_fixedDigits_append s.day_lt t.day_lt,
    compare_fixedDigits_append s.hour_lt t.hour_lt,
    compare_fixedDigits_append s.minute_lt t.minute_lt,
    compare_fixedDigits_append s.second_lt t.second_lt]

theorem toNat_lt_of_mem_chars : ∀ c ∈ s.chars, c.toNat < 128 := by
  have hdigits : ∀ {width n : ℕ}, ∀ c ∈ fixedDigits width n, c.toNat < 128 := by
    intro width n c hc
    have hhigh : c.toNat ≤ 57 := (isDigit_iff.mp (isDigit_of_mem_fixedDigits hc)).2
    omega
  have hfraction : ∀ c ∈ s.fractionChars, c.toNat < 128 := by
    cases width with
    | zero => exact fun c hc => absurd hc List.not_mem_nil
    | succ width => exact List.forall_mem_cons.mpr ⟨by decide, hdigits⟩
  simp only [chars, List.forall_mem_append, List.forall_mem_cons]
  exact ⟨hdigits, by decide, hdigits, by decide, hdigits, by decide, hdigits, by decide, hdigits,
    by decide, hdigits, hfraction, by decide, List.forall_mem_nil _⟩

/-- So are their bytes. -/
theorem compare_bytes : compare (Text.bytes s.text) (Text.bytes t.text) = s.order t := by
  rw [text, text, Text.bytes_ofList s.toNat_lt_of_mem_chars,
    Text.bytes_ofList t.toNat_lt_of_mem_chars, Text.compare_map_toNat, compare_chars]

end Stamp

/-! ### Reading -/

namespace Instant

variable {width n : ℕ} {rest : List Char}

/-- A number of the width that is asked for is read. -/
theorem takeNumber_fixedDigits (hlt : n < 10 ^ width) (rest : List Char) :
    takeNumber width (fixedDigits width n ++ rest) = some (n, rest) := by
  have hlength := length_fixedDigits width n
  have htake : (fixedDigits width n ++ rest).take width = fixedDigits width n :=
    List.take_left' hlength
  have hdrop : (fixedDigits width n ++ rest).drop width = rest := List.drop_left' hlength
  have hdigits : (fixedDigits width n).all Char.isDigit = true :=
    List.all_eq_true.mpr fun _ => isDigit_of_mem_fixedDigits
  rw [takeNumber, htake, hdrop, if_pos ⟨hlength, hdigits⟩, digitsValue_fixedDigits hlt]

/-- A fraction of up to nine digits is read in nanoseconds. -/
theorem takeFraction_fixedDigits (hle : width ≤ 9) (hne : width ≠ 0) (hlt : n < 10 ^ width)
    (hrest : Text.Stops Char.isDigit rest) :
    takeFraction ('.' :: (fixedDigits width n ++ rest)) = some (n * 10 ^ (9 - width), rest) := by
  have hlength := length_fixedDigits width n
  have hdigits : ∀ c ∈ fixedDigits width n, c.isDigit = true := fun _ =>
    isDigit_of_mem_fixedDigits
  have hnil : fixedDigits width n ≠ [] := by
    intro hnil
    rw [hnil] at hlength
    exact hne hlength.symm
  obtain ⟨htake, hdrop⟩ := Text.span_eq_iff.mpr ⟨rfl, hdigits, hrest⟩
  rw [takeFraction, Number.takeDigits, htake, hdrop]
  dsimp only
  rw [if_neg hnil, List.take_of_length_le (by rwa [hlength]), digitsValue_fixedDigits hlt, hlength,
    Nat.pow_eq]

end Instant

namespace Stamp

variable {width : ℕ} (s t : Stamp width)

theorem takeFraction_fractionChars (hwidth : width ≤ 9) :
    Instant.takeFraction (s.fractionChars ++ ['Z']) =
      some (s.fraction * 10 ^ (9 - width), ['Z']) := by
  cases width with
  | zero =>
    have hzero : s.fraction = 0 := Nat.lt_one_iff.mp s.fraction_lt
    rw [hzero]
    rfl
  | succ width =>
    have hstop : Text.Stops Char.isDigit ['Z'] := by simp [Text.Stops]
    exact Instant.takeFraction_fixedDigits hwidth (Nat.succ_ne_zero width) s.fraction_lt hstop

/-- A timestamp is read as its instant. -/
theorem read?_text (hwidth : width ≤ 9) : Instant.read? s.text.toList = some s.instant := by
  have hdash : ∀ rest, Instant.skip ['-'] ('-' :: rest) = some rest := fun _ => rfl
  have hmark : ∀ rest, Instant.skip ['T', 't', ' '] ('T' :: rest) = some rest := fun _ => rfl
  have hcolon : ∀ rest, Instant.skip [':'] (':' :: rest) = some rest := fun _ => rfl
  have hoffset : Instant.readOffset? ['Z'] = some 0 := rfl
  have hvalid : 1 ≤ s.day ∧ s.day ≤ Calendar.monthLength s.year s.month ∧ s.hour ≤ 23 ∧
      s.minute ≤ 59 ∧ s.second ≤ 60 :=
    ⟨s.one_le_day, s.day_le, s.hour_le, s.minute_le, s.second_le⟩
  simp only [text, String.toList_ofList, chars, Instant.read?, Option.bind_eq_bind,
    Option.bind_some, Instant.takeNumber_fixedDigits, s.year_lt, s.month_lt, s.day_lt, s.hour_lt,
    s.minute_lt, s.second_lt, hdash, hmark, hcolon, s.takeFraction_fractionChars hwidth, hoffset,
    if_pos hvalid]
  rfl

/-! ### The order of instants -/

/-- The whole seconds of a timestamp, where a leap second counts as the one before it. -/
def wholeSeconds : ℕ :=
  86400 * s.number + (3600 * s.hour + (60 * s.minute + min s.second 59))

/-- The nanoseconds behind the whole seconds of a timestamp. -/
def nanoseconds : ℕ :=
  if s.second = 60 then s.fraction * 10 ^ (9 - width) + 1000000000
  else s.fraction * 10 ^ (9 - width)

theorem instant_eq : s.instant = ⟨s.wholeSeconds, s.nanoseconds⟩ := by
  unfold instant wholeSeconds nanoseconds Instant.ofClock Calendar.Date.number
  congr 1
  omega

/-- The clock of a day counts its seconds up to the hour and the minute. -/
theorem compare_wholeSeconds :
    compare s.wholeSeconds t.wholeSeconds =
      (compare s.number t.number).then ((compare s.hour t.hour).then
        ((compare s.minute t.minute).then (compare (min s.second 59) (min t.second 59)))) := by
  have hsecond : ∀ u : Stamp width, min u.second 59 < 60 := fun u => by omega
  have hminute : ∀ u : Stamp width, 60 * u.minute + min u.second 59 < 3600 := fun u => by
    have hle := u.minute_le
    omega
  have hhour : ∀ u : Stamp width,
      3600 * u.hour + (60 * u.minute + min u.second 59) < 86400 := fun u => by
    have hle := u.hour_le
    have hlt := hminute u
    omega
  rw [wholeSeconds, wholeSeconds, compare_mul_add (hhour s) (hhour t),
    compare_mul_add (hminute s) (hminute t), compare_mul_add (hsecond s) (hsecond t)]

/-- A leap second comes behind the one before it and before the next one: within the whole second
that they share, its fractions have a billion nanoseconds more. -/
theorem compare_second {a b m n : ℕ} (ha : a ≤ 60) (hb : b ≤ 60) (hm : m < 1000000000)
    (hn : n < 1000000000) :
    (compare (min a 59) (min b 59)).then
        (compare (if a = 60 then m + 1000000000 else m) (if b = 60 then n + 1000000000 else n)) =
      (compare a b).then (compare m n) := by
  -- Whole seconds get room for two billion, so that a leap second has a place of its own.
  let start : ℕ → ℕ := fun second => 1000000000 * (2 * min second 59 + (second - 59))
  have hmono : Monotone start := fun _ _ hle => by
    dsimp only [start]
    omega
  have hplace : ∀ {second nano : ℕ}, second ≤ 60 → nano < 1000000000 →
      (if second = 60 then nano + 1000000000 else nano) < 2000000000 ∧
      2000000000 * min second 59 + (if second = 60 then nano + 1000000000 else nano) =
        start second + nano ∧
      start second + nano < start (second + 1) := by
    intro second nano hsecond hnano
    dsimp only [start]
    split_ifs <;> omega
  obtain ⟨halt, hastart, hanext⟩ := hplace ha hm
  obtain ⟨hblt, hbstart, hbnext⟩ := hplace hb hn
  rw [← compare_mul_add halt hblt, hastart, hbstart, compare_start_add hmono hanext hbnext]

/-- Instants are ordered as the numbers of their timestamps are. -/
theorem compare_instant (hwidth : width ≤ 9) : compare s.instant t.instant = s.order t := by
  have hunit : 10 ^ width * 10 ^ (9 - width) = 1000000000 := by
    rw [← Nat.pow_add, Nat.add_sub_cancel' hwidth]
  have hpos : 0 < 10 ^ (9 - width) := Nat.pow_pos (by decide)
  have hnano : ∀ u : Stamp width, u.fraction * 10 ^ (9 - width) < 1000000000 := fun u =>
    hunit ▸ Nat.mul_lt_mul_of_pos_right u.fraction_lt hpos
  have hfraction : compare (s.fraction * 10 ^ (9 - width)) (t.fraction * 10 ^ (9 - width)) =
      compare s.fraction t.fraction :=
    compare_map (fun _ _ hlt => Nat.mul_lt_mul_of_pos_right hlt hpos) s.fraction t.fraction
  have hsecond : compare (s.wholeSeconds : Int) t.wholeSeconds =
      compare s.wholeSeconds t.wholeSeconds :=
    compare_map (fun _ _ hlt => Int.ofNat_lt.mpr hlt) s.wholeSeconds t.wholeSeconds
  have hclock := compare_second s.second_le t.second_le (hnano s) (hnano t)
  rw [s.instant_eq, t.instant_eq]
  show (compare (s.wholeSeconds : Int) t.wholeSeconds).then
    (compare s.nanoseconds t.nanoseconds) = s.order t
  rw [hsecond, compare_wholeSeconds, Calendar.Date.compare_number]
  simp only [Ordering.then_assoc]
  rw [nanoseconds, nanoseconds, hclock, hfraction, order]

/-- Timestamps in universal time are read as instants and compared so, and with equally many digits
behind the point, up to nine, the outcome is the order of the bytes of their texts. They are level
only if they are the same text. -/
theorem compareTexts_eq_compare_bytes (hwidth : width ≤ 9) :
    (∃ i j, Instant.read? s.text.toList = some i ∧ Instant.read? t.text.toList = some j ∧
      Comparison.compareTexts s.text t.text = compare i j) ∧
    Comparison.compareTexts s.text t.text = compare (Text.bytes s.text) (Text.bytes t.text) ∧
    (Comparison.compareTexts s.text t.text = .eq ↔ s.text = t.text) := by
  have hs := s.read?_text hwidth
  have ht := t.read?_text hwidth
  have hcompare : Comparison.compareTexts s.text t.text = compare s.instant t.instant :=
    Comparison.compareTexts_of_instants hs ht
  refine ⟨⟨_, _, hs, ht, hcompare⟩, ?_, ?_⟩
  · rw [hcompare, s.compare_instant t hwidth, s.compare_bytes t]
  · rw [hcompare, s.compare_instant t hwidth, ← s.compare_chars t, text, text,
      String.ofList_inj]
    exact Std.LawfulEqOrd.compare_eq_iff_eq

/-- A leap second at the end of a leap day is before the day that follows. -/
theorem compareTexts_eq_compare_bytes_leap :
    1 ≤ 9 ∧ Comparison.compareTexts "2024-02-29T23:59:60.5Z" "2024-03-01T00:00:00.0Z" = .lt := by
  let leap : Stamp 1 := ⟨⟨2024, 2, 29, by decide, by decide⟩, 23, 59, 60, 5, by decide, by decide,
    by decide, by decide, by decide⟩
  let next : Stamp 1 := ⟨⟨2024, 3, 1, by decide, by decide⟩, 0, 0, 0, 0, by decide, by decide,
    by decide, by decide, by decide⟩
  have hwidth : 1 ≤ 9 := by decide
  have hleap : leap.text = "2024-02-29T23:59:60.5Z" := by decide +kernel
  have hnext : next.text = "2024-03-01T00:00:00.0Z" := by decide +kernel
  have hbytes := (compareTexts_eq_compare_bytes leap next hwidth).2.1
  rw [hleap, hnext] at hbytes
  refine ⟨hwidth, hbytes.trans ?_⟩
  decide +kernel

end Stamp

end RecordQuery
