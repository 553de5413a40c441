import Mathlib.Tactic.Common
import RecordQuery.Json.Token
import RecordQuery.Json.Writer
import RecordQuery.Proofs.Runs

/-!
# Reading numbers back

The text of a number is read as this number, unless what follows it goes on with the number.
-/

namespace RecordQuery

open Text

namespace Token

variable {rest : List Char}

/-- Whether a number may go on with a character: a digit, a point, or the mark of an exponent. -/
def continuesNumber (c : Char) : Bool :=
  c.isDigit || c == '.' || c == 'e' || c == 'E'

/-- A text that does not go on with a number does not do so with a part of one. -/
theorem stops_of_stops_continuesNumber {kind : Char → Bool} (hrest : Stops continuesNumber rest)
    (hkind : ∀ c, kind c = true → continuesNumber c = true) : Stops kind rest := by
  intro c hc
  rw [← Bool.not_eq_true]
  intro htrue
  have hstops := hrest c hc
  rw [hkind c htrue] at hstops
  cases hstops

/-- A text that does not go on with a number does not do so with a digit. -/
theorem stops_isDigit (hrest : Stops continuesNumber rest) : Stops Char.isDigit rest :=
  stops_of_stops_continuesNumber hrest fun c hc => by simp [continuesNumber, hc]

/-- A text that does not go on with a number does not do so with a point. -/
theorem stops_point (hrest : Stops continuesNumber rest) : Stops (· == '.') rest :=
  stops_of_stops_continuesNumber hrest fun c hc => by simp_all [continuesNumber]

/-- The digits of a natural number are the whole part of a number. -/
theorem takeWhole_toString (n : Nat) (hrest : Stops Char.isDigit rest) :
    takeWhole ((toString n).toList ++ rest) = some ((toString n).toList, rest) := by
  by_cases hzero : n = 0
  · subst hzero
    rfl
  · rw [takeWhole.eq_2, takeDigits_toString n hrest]
    · exact if_neg (toList_toString_ne_nil n)
    · intro tail htext
      refine head?_toString_ne_zero hzero ?_
      obtain ⟨c, digits, hdigits⟩ := List.exists_cons_of_ne_nil (toList_toString_ne_nil n)
      rw [hdigits, List.cons_append] at htext
      rw [hdigits, (List.cons.inj htext).1]
      rfl

/-- Where no point stands, a number has no fraction. -/
theorem takeFraction_of_stops (hrest : Stops (· == '.') rest) : takeFraction rest = ([], rest) := by
  unfold takeFraction
  split
  · cases hrest '.' rfl
  · rfl

/-- Where no mark of an exponent stands, a number has none. -/
theorem takeExponent_of_stops (hrest : Stops continuesNumber rest) :
    Number.takeExponent rest = none := by
  cases rest with
  | nil => rfl
  | cons mark rest =>
    rw [Number.takeExponent, if_neg]
    rintro (rfl | rfl) <;> cases hrest _ rfl

/-- An exponent is read from the text of an integer behind its mark. -/
theorem takeExponent_toString (exponent : Int) (hrest : Stops Char.isDigit rest) :
    Number.takeExponent ('e' :: ((toString exponent).toList ++ rest)) = some (exponent, rest) := by
  rw [Number.takeExponent, if_pos (.inl rfl)]
  cases exponent with
  | ofNat n =>
    have htext : (toString (Int.ofNat n)).toList = (toString n).toList := rfl
    rw [htext, takeSign_toString]
    dsimp only
    rw [takeDigits_toString n hrest]
    dsimp only
    rw [if_neg (toList_toString_ne_nil n), digitsValue_toString]
    rfl
  | negSucc n =>
    rw [toList_toString_negSucc, List.cons_append, Number.takeSign]
    dsimp only
    rw [takeDigits_toString (n + 1) hrest]
    dsimp only
    rw [if_neg (toList_toString_ne_nil (n + 1)), digitsValue_toString]
    rfl

/-- The number of given digits before and behind its point, and what follows it. The text behind the
digits may begin with an exponent. -/
def endNumber (negative : Bool) (whole fraction tail : List Char) : Number × List Char :=
  match Number.takeExponent tail with
  | some (exponent, rest) => (.decimal (.ofDigits negative whole fraction exponent), rest)
  | none =>
    if fraction = [] ∧ ¬(negative ∧ Number.digitsValue whole = 0) then
      (.integer (if negative then -(Number.digitsValue whole : Int) else Number.digitsValue whole),
        tail)
    else (.decimal (.ofDigits negative whole fraction 0), tail)

/-- A number is read behind its sign digits first. -/
theorem readUnsigned_eq {negative : Bool} {text whole afterWhole fraction tail : List Char}
    (hwhole : takeWhole text = some (whole, afterWhole))
    (hfraction : takeFraction afterWhole = (fraction, tail)) :
    readUnsigned negative text = some (endNumber negative whole fraction tail) := by
  rw [readUnsigned, hwhole, Option.bind_eq_bind, Option.bind_some]
  dsimp only
  rw [hfraction, endNumber]
  dsimp only
  cases Number.takeExponent tail with
  | none => exact (apply_ite some _ _ _).symm
  | some _ => rfl

/-- A number without point and exponent is an integer, unless it is minus zero. -/
theorem readUnsigned_integer {negative : Bool} {n : Nat} (hzero : negative = true → n ≠ 0)
    (hrest : Stops continuesNumber rest) :
    readUnsigned negative ((toString n).toList ++ rest) =
      some (.integer (if negative then -(n : Int) else n), rest) := by
  have hwhole := takeWhole_toString n (stops_isDigit hrest)
  have hfraction := takeFraction_of_stops (stops_point hrest)
  rw [readUnsigned_eq hwhole hfraction, endNumber, takeExponent_of_stops hrest,
    digitsValue_toString]
  exact congrArg some (if_pos ⟨rfl, fun hnegative => hzero hnegative.1 hnegative.2⟩)

/-- A number with an exponent is a decimal. -/
theorem readUnsigned_decimal (negative : Bool) (mantissa : Nat) (scale : Int)
    (hrest : Stops continuesNumber rest) :
    readUnsigned negative
        ((toString mantissa).toList ++ 'e' :: ((toString scale).toList ++ rest)) =
      some (.decimal ⟨negative, mantissa, scale⟩, rest) := by
  rw [readUnsigned_eq (takeWhole_toString mantissa (stops_cons rfl))
    (takeFraction_of_stops (stops_cons rfl)), endNumber,
    takeExponent_toString scale (stops_isDigit hrest)]
  dsimp only
  rw [Decimal.ofDigits, List.append_nil, digitsValue_toString, List.length_nil, Int.natCast_zero,
    Int.sub_zero]

/-- A number that begins with a digit has no sign. -/
theorem readNumber_of_isDigit {c : Char} (hc : c.isDigit = true) (text : List Char) :
    readNumber (c :: text) = readUnsigned false (c :: text) := by
  unfold readNumber
  split
  · next heq => cases (List.cons.inj heq).1; cases hc
  · rfl

/-- A number is read from its text. -/
theorem readNumber_write (value : Number) (hrest : Stops continuesNumber rest) :
    readNumber (value.write.toList ++ rest) = some (value, rest) := by
  have hunsigned : ∀ (n : Nat) (tail : List Char), readNumber ((toString n).toList ++ tail) =
      readUnsigned false ((toString n).toList ++ tail) := by
    intro n tail
    obtain ⟨c, digits, hdigits, hc⟩ := exists_toList_toString_eq_cons n
    rw [hdigits, List.cons_append, readNumber_of_isDigit hc]
  match value with
  | .integer (.ofNat n) =>
    have htext : (Number.integer (.ofNat n)).write.toList = (toString n).toList := rfl
    rw [htext, hunsigned, readUnsigned_integer (by simp) hrest]
    rfl
  | .integer (.negSucc n) =>
    have htext : (Number.integer (.negSucc n)).write.toList = '-' :: (toString (n + 1)).toList :=
      toList_toString_negSucc n
    rw [htext, List.cons_append, readNumber,
      readUnsigned_integer (fun _ => Nat.succ_ne_zero n) hrest]
    rfl
  | .decimal ⟨negative, mantissa, scale⟩ =>
    have htext : (Number.decimal ⟨negative, mantissa, scale⟩).write.toList ++ rest =
        (if negative then ['-'] else []) ++
          ((toString mantissa).toList ++ 'e' :: ((toString scale).toList ++ rest)) := by
      cases negative <;> simp [Number.write]
    rw [htext]
    cases negative with
    | true =>
      rw [if_pos rfl, List.singleton_append, readNumber, readUnsigned_decimal _ _ _ hrest]
    | false =>
      rw [if_neg Bool.false_ne_true, List.nil_append, hunsigned, readUnsigned_decimal _ _ _ hrest]

end Token

end RecordQuery
