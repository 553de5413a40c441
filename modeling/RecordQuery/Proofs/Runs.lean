import Mathlib.Data.List.TakeWhile
import RecordQuery.Number.Digits

/-!
# Runs of characters

Readers take the longest run of characters of some kind from the head of a text. What has been
written is read back if the text does not go on with another character of this kind.
-/

namespace RecordQuery

namespace Text

/-- A text does not go on with a character of some kind. -/
def Stops (kind : Char → Bool) (text : List Char) : Prop :=
  ∀ c, text.head? = some c → kind c = false

/-- The end of a text goes on with nothing. -/
theorem stops_nil (kind : Char → Bool) : Stops kind [] := by
  intro c hc
  cases hc

/-- Whether a text goes on is seen at its first character. -/
theorem stops_cons {kind : Char → Bool} {c : Char} {rest : List Char} (hc : kind c = false) :
    Stops kind (c :: rest) := by
  intro d hd
  obtain rfl := Option.some.inj hd
  exact hc

/-- Two texts of which neither goes on with a character do not do so together. -/
theorem Stops.append {kind : Char → Bool} {text rest : List Char} (htext : Stops kind text)
    (hrest : Stops kind rest) : Stops kind (text ++ rest) := by
  cases text with
  | nil => exact hrest
  | cons c text => exact stops_cons (htext c rfl)

/-- A text is a run of characters of a kind and what stops this run, in one way only. -/
theorem span_eq_iff {kind : Char → Bool} {text word rest : List Char} :
    (text.takeWhile kind = word ∧ text.dropWhile kind = rest) ↔
      word ++ rest = text ∧ (∀ c ∈ word, kind c = true) ∧ Stops kind rest := by
  constructor
  · rintro ⟨rfl, rfl⟩
    refine ⟨List.takeWhile_append_dropWhile, fun c hc => List.mem_takeWhile_imp hc, ?_⟩
    intro c hc
    have hhead := List.head?_dropWhile_not kind text
    rw [hc] at hhead
    exact hhead
  · rintro ⟨rfl, hword, hrest⟩
    rw [List.takeWhile_append_of_pos hword, List.dropWhile_append_of_pos hword]
    cases rest with
    | nil => simp
    | cons c rest =>
      have hc : kind c = false := hrest c rfl
      simp [hc]

end Text

/-! ## Digits -/

/-- A natural number is written with digits. -/
theorem isDigit_of_mem_toString {n : Nat} {c : Char} (hc : c ∈ (toString n).toList) :
    c.isDigit = true := by
  rw [Nat.toString_eq_ofList_toDigits, String.toList_ofList] at hc
  exact Nat.isDigit_of_mem_toDigits (by decide) (by decide) hc

/-- The digits of a natural number spell it. -/
theorem digitsValue_toString (n : Nat) : Number.digitsValue (toString n).toList = n := by
  rw [Nat.toString_eq_ofList_toDigits, String.toList_ofList]
  exact Nat.ofDigitChars_ten_toDigits

/-- A natural number is written with at least one digit. -/
theorem toList_toString_ne_nil (n : Nat) : (toString n).toList ≠ [] := by
  rw [Nat.toString_eq_ofList_toDigits, String.toList_ofList]
  exact Nat.toDigits_ne_nil

/-- The text of a natural number begins with a digit. -/
theorem exists_toList_toString_eq_cons (n : Nat) :
    ∃ c digits, (toString n).toList = c :: digits ∧ c.isDigit = true := by
  obtain ⟨c, digits, hdigits⟩ := List.exists_cons_of_ne_nil (toList_toString_ne_nil n)
  refine ⟨c, digits, hdigits, isDigit_of_mem_toString (n := n) ?_⟩
  rw [hdigits]
  exact List.mem_cons_self

/-- Only zero is written with a leading zero. -/
theorem head?_toString_ne_zero {n : Nat} (hpositive : n ≠ 0) :
    (toString n).toList.head? ≠ some '0' := by
  rw [Nat.toString_eq_ofList_toDigits, String.toList_ofList]
  induction n using Nat.strongRecOn with
  | ind n ih =>
    by_cases hlt : n < 10
    · have hdigit : ∀ m < 10, m ≠ 0 → [m.digitChar].head? ≠ some '0' := by decide
      rw [Nat.toDigits_of_lt_base hlt]
      exact hdigit n hlt hpositive
    · obtain ⟨c, cs, hdigits⟩ :=
        List.exists_cons_of_ne_nil (Nat.toDigits_ne_nil (n := n / 10) (b := 10))
      have hhead := ih (n / 10) (by omega) (by omega)
      rw [hdigits] at hhead
      rwa [Nat.toDigits_of_base_le (by decide) (by omega), hdigits]

/-- A run of digits is taken from the head of a text that does not go on with a digit. -/
theorem takeDigits_append {digits rest : List Char} (hdigits : ∀ c ∈ digits, c.isDigit = true)
    (hrest : Text.Stops Char.isDigit rest) :
    Number.takeDigits (digits ++ rest) = (digits, rest) := by
  obtain ⟨hword, hafter⟩ := Text.span_eq_iff.mpr ⟨rfl, hdigits, hrest⟩
  rw [Number.takeDigits, hword, hafter]

/-- A natural number is taken from the head of a text with all its digits. -/
theorem takeDigits_toString {rest : List Char} (n : Nat) (hrest : Text.Stops Char.isDigit rest) :
    Number.takeDigits ((toString n).toList ++ rest) = ((toString n).toList, rest) :=
  takeDigits_append (fun _ hc => isDigit_of_mem_toString hc) hrest

/-- A digit is no sign. -/
theorem takeSign_of_isDigit {c : Char} (hc : c.isDigit = true) (rest : List Char) :
    Number.takeSign (c :: rest) = (false, c :: rest) := by
  unfold Number.takeSign
  split
  · next heq => cases (List.cons.inj heq).1; cases hc
  · next heq => cases (List.cons.inj heq).1; cases hc
  · rfl

/-- A natural number is written without a sign. -/
theorem takeSign_toString (n : Nat) (rest : List Char) :
    Number.takeSign ((toString n).toList ++ rest) = (false, (toString n).toList ++ rest) := by
  obtain ⟨c, digits, hdigits, hc⟩ := exists_toList_toString_eq_cons n
  rw [hdigits, List.cons_append, takeSign_of_isDigit hc]

/-- A negative integer is written as its magnitude behind a minus. -/
theorem toList_toString_negSucc (n : Nat) :
    (toString (Int.negSucc n)).toList = '-' :: (toString (n + 1)).toList := by
  have htext : toString (Int.negSucc n) = "-" ++ toString (n + 1) := rfl
  rw [htext, String.toList_append]
  rfl

end RecordQuery
