import Mathlib.Tactic.Common
import RecordQuery.Comparison
import RecordQuery.Proofs.PathGrammar

/-!
# Reading parameters

What the texts of parameters spell: a truth value or a number between blanks. Integers are spelled
by their digits behind an optional sign. They are read as the decimals that equal them, but for
minus zero, which is told apart from zero by its sign.
-/

namespace RecordQuery

namespace Text

/-- A text is another one with blanks around it. -/
def Pads (core text : List Char) : Prop :=
  ∃ left right, (∀ c ∈ left, isBlank c = true) ∧ (∀ c ∈ right, isBlank c = true) ∧
    text = left ++ core ++ right

/-- A text that has no blank at its start stays as it is if blanks are left out there. -/
theorem dropWhile_isBlank_append {blanks rest : List Char}
    (hblanks : ∀ c ∈ blanks, isBlank c = true) (hrest : Stops isBlank rest) :
    (blanks ++ rest).dropWhile isBlank = rest :=
  (span_eq_iff.mpr ⟨rfl, hblanks, hrest⟩).2

/-- A text without blanks is what remains of it if blanks around it are left out. -/
theorem trim_of_pads {core text : List Char} (hcore : ∀ c ∈ core, isBlank c = false)
    (hne : core ≠ []) (hpads : Pads core text) : trim text = core := by
  obtain ⟨left, right, hleft, hright, rfl⟩ := hpads
  have hfront : Stops isBlank (core ++ right) := by
    intro c hc
    rw [List.head?_append_of_ne_nil core hne] at hc
    exact hcore c (List.mem_of_mem_head? hc)
  have hback : Stops isBlank core.reverse := fun c hc =>
    hcore c (List.mem_reverse.mp (List.mem_of_mem_head? hc))
  have hblanks : ∀ c ∈ right.reverse, isBlank c = true := fun c hc =>
    hright c (List.mem_reverse.mp hc)
  rw [trim, List.append_assoc, dropWhile_isBlank_append hleft hfront, List.reverse_append,
    dropWhile_isBlank_append hblanks hback, List.reverse_reverse]

/-- Every text pads itself. -/
theorem pads_self (text : List Char) : Pads text text :=
  ⟨[], [], by simp, by simp, by simp⟩

/-- No digit is a blank. -/
theorem isBlank_of_isDigit {c : Char} (hc : IsDigit c) : isBlank c = false := by
  have hlow : 48 ≤ c.toNat := hc.1
  have hhigh : c.toNat ≤ 57 := hc.2
  simp only [isBlank, inRanges, whiteSpace, List.any_cons, List.any_nil, Bool.or_false,
    Bool.or_eq_false_iff, Bool.and_eq_false_iff, decide_eq_false_iff_not]
  omega

end Text

/-- Digits behind an optional sign, and the integer that they spell. -/
inductive SpellsInteger : List Char → Int → Prop
  | unsigned {digits : List Char} {value : Nat} :
    SpellsNumber digits value → SpellsInteger digits value
  | plus {digits : List Char} {value : Nat} :
    SpellsNumber digits value → SpellsInteger ('+' :: digits) value
  | minus {digits : List Char} {value : Nat} :
    SpellsNumber digits value → SpellsInteger ('-' :: digits) (-value)

/-- The text of an integer spells it. -/
theorem spellsInteger_toString (n : Int) : SpellsInteger (toString n).toList n := by
  cases n with
  | ofNat n => exact .unsigned (spellsNumber_toString_iff.mpr rfl)
  | negSucc n =>
    rw [toList_toString_negSucc]
    exact .minus (spellsNumber_toString_iff.mpr rfl)

namespace SpellsInteger

variable {text : List Char} {n : Int}

/-- An integer is spelled without blanks. -/
theorem isBlank_eq_false (hspells : SpellsInteger text n) : ∀ c ∈ text, Text.isBlank c = false := by
  have hdigits : ∀ {digits : List Char} {value : Nat}, SpellsNumber digits value →
      ∀ c ∈ digits, Text.isBlank c = false := fun hnumber c hc =>
    Text.isBlank_of_isDigit ((spellsNumber_iff.mp hnumber).2.1 c hc)
  cases hspells with
  | unsigned hnumber => exact hdigits hnumber
  | plus hnumber => exact List.forall_mem_cons.mpr ⟨by decide, hdigits hnumber⟩
  | minus hnumber => exact List.forall_mem_cons.mpr ⟨by decide, hdigits hnumber⟩

/-- An integer is spelled with at least one digit. -/
theorem ne_nil (hspells : SpellsInteger text n) : text ≠ [] := by
  cases hspells with
  | unsigned hnumber => exact (spellsNumber_iff.mp hnumber).1
  | plus => exact List.cons_ne_nil _ _
  | minus => exact List.cons_ne_nil _ _

end SpellsInteger

namespace Numeral

variable {digits : List Char} {value : Nat}

/-- Digits are read as the decimal that they spell. -/
theorem decimal?_of_spellsNumber (negative : Bool) (hnumber : SpellsNumber digits value) :
    decimal? negative digits = some ⟨negative, value, 0⟩ := by
  obtain ⟨hne, hdigits, rfl⟩ := spellsNumber_iff.mp hnumber
  obtain ⟨htake, hdrop⟩ := Text.span_eq_iff.mpr
    ⟨List.append_nil digits, fun c hc => isDigit_iff.mpr (hdigits c hc), Text.stops_nil _⟩
  have hrun : Number.takeDigits digits = (digits, []) := by
    rw [Number.takeDigits, htake, hdrop]
  simp [decimal?, hrun, hne, Decimal.ofDigits]

/-- Digits have no lower case. -/
theorem map_toLower_of_spellsNumber (hnumber : SpellsNumber digits value) :
    digits.map Char.toLower = digits := by
  obtain ⟨_, hdigits, _⟩ := spellsNumber_iff.mp hnumber
  refine (List.map_congr_left fun c hc => ?_).trans (List.map_id digits)
  have hhigh : c.val ≤ '9'.val := (hdigits c hc).2
  refine dif_neg fun hletter => ?_
  exact absurd (UInt32.le_trans hletter.1 hhigh) (by decide)

/-- Digits are no word for a number. -/
theorem ne_of_spellsNumber {word : List Char} {c : Char} (hnumber : SpellsNumber digits value)
    (hc : ¬ IsDigit c) (hmem : c ∈ word) : digits.map Char.toLower ≠ word := by
  rw [map_toLower_of_spellsNumber hnumber]
  rintro rfl
  exact hnumber.not_mem hc hmem

/-- Behind a sign that has been taken, digits are read as a decimal. -/
theorem read?_of_takeSign {text : List Char} {negative : Bool}
    (hsign : Number.takeSign text = (negative, digits)) (hnumber : SpellsNumber digits value) :
    read? text = some (.finite ⟨negative, value, 0⟩) := by
  rw [read?, hsign]
  dsimp only
  rw [if_neg (ne_of_spellsNumber hnumber (c := 'n') (by decide) (by decide)), if_neg,
    decimal?_of_spellsNumber negative hnumber]
  · rfl
  · rintro (hword | hword)
    · exact ne_of_spellsNumber hnumber (c := 'n') (by decide) (by decide) hword
    · exact ne_of_spellsNumber hnumber (c := 'n') (by decide) (by decide) hword

/-- Digits have no sign in front. -/
theorem takeSign_of_spellsNumber (hnumber : SpellsNumber digits value) :
    Number.takeSign digits = (false, digits) := by
  unfold Number.takeSign
  split
  · exact absurd List.mem_cons_self (hnumber.not_mem (by decide))
  · exact absurd List.mem_cons_self (hnumber.not_mem (by decide))
  · rfl

/-- An integer is read as a decimal without fraction and exponent. -/
theorem read?_of_spellsInteger {text : List Char} {n : Int} (hspells : SpellsInteger text n) :
    ∃ negative, read? text = some (.finite ⟨negative, n.natAbs, 0⟩) ∧
      n = if negative then -(n.natAbs : Int) else n.natAbs := by
  cases hspells with
  | unsigned hnumber =>
    exact ⟨false, read?_of_takeSign (takeSign_of_spellsNumber hnumber) hnumber, rfl⟩
  | plus hnumber => exact ⟨false, read?_of_takeSign rfl hnumber, rfl⟩
  | @minus digits value hnumber =>
    refine ⟨true, ?_, by simp⟩
    rw [Int.natAbs_neg, Int.natAbs_natCast]
    exact read?_of_takeSign rfl hnumber

end Numeral

namespace Comparison

variable {parameter : String}

/-- A parameter is read as the truth value whose word stands in it between blanks. -/
theorem readBool?_eq_some_iff {truth : Bool} :
    readBool? parameter = some truth ↔ Text.trim parameter.toList = (toString truth).toList := by
  have hword : ∀ word : String, String.ofList (Text.trim parameter.toList) = word ↔
      Text.trim parameter.toList = word.toList := by
    intro word
    rw [← String.toList_inj, String.toList_ofList]
  unfold readBool?
  dsimp only
  split_ifs with htrue hfalse
  · rw [hword] at htrue
    rw [htrue]
    cases truth <;> decide
  · rw [hword] at hfalse
    rw [hfalse]
    cases truth <;> decide
  · rw [hword] at htrue hfalse
    cases truth
    · exact iff_of_false (by simp) hfalse
    · exact iff_of_false (by simp) htrue

/-- A parameter is not read as a number if no numeral stands in it between blanks, or NaN does. -/
theorem readNumber?_eq_none_iff :
    readNumber? parameter = none ↔ Numeral.read? (Text.trim parameter.toList) = none ∨
      Numeral.read? (Text.trim parameter.toList) = some .nan := by
  rw [readNumber?, Option.bind_eq_none_iff]
  cases Numeral.read? (Text.trim parameter.toList) with
  | none => simp
  | some numeral => cases numeral <;> simp [Numeral.nearest?]

end Comparison

end RecordQuery
