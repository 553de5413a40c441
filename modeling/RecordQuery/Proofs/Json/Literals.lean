import Mathlib.Tactic.Common
import RecordQuery.Json.StringLiteral

/-!
# Reading string literals back

The literal of a text is read as this text. Every character is read from its own escape, and no
character of a text is one half of a surrogate pair.
-/

namespace RecordQuery.StringLiteral

variable {text : List Char}

/-- The digits of a hexadecimal numeral are read as their values. -/
theorem hexDigit?_digitChar : ∀ n < 16, hexDigit? (Nat.digitChar n) = some n := by
  decide

/-- Two hexadecimal digits spell every number below 256. -/
theorem unit?_digitChar {n : Nat} (hn : n < 256) :
    unit? '0' '0' (Nat.digitChar (n / 16)) (Nat.digitChar (n % 16)) = some n := by
  have hzero : hexDigit? '0' = some 0 := rfl
  rw [unit?, hzero, hexDigit?_digitChar (n / 16) (by omega),
    hexDigit?_digitChar (n % 16) (Nat.mod_lt n (by decide))]
  exact congrArg some (by omega)

/-- The code point of a character is read from the escape of the character. -/
theorem readPoints_escapeChar (c : Char) :
    readPoints (escapeChar c ++ text) =
      (readPoints text).map fun (points, rest) => (c.toNat :: points, rest) := by
  have hmap : ∀ point, (do
      let (points, rest) ← readPoints text
      some (point :: points, rest)) =
        (readPoints text).map fun (points, rest) => (point :: points, rest) := by
    intro point
    cases readPoints text <;> rfl
  unfold escapeChar
  split_ifs with hquote hbackslash hb hf hn hr ht hcontrol
  all_goals try subst c
  -- The escapes with a letter.
  iterate 7
    · rw [List.cons_append, List.cons_append, List.nil_append, readPoints.eq_4 _ _ (by simp)]
      exact hmap _
  · rw [show ['\\', 'u', '0', '0', Nat.digitChar (c.toNat / 16), Nat.digitChar (c.toNat % 16)] ++
      text = '\\' :: 'u' :: '0' :: '0' :: Nat.digitChar (c.toNat / 16) ::
        Nat.digitChar (c.toNat % 16) :: text from rfl, readPoints, unit?_digitChar (by omega)]
    exact hmap _
  · rw [List.singleton_append, readPoints.eq_5 c text hquote
      (fun _ _ _ _ _ h => absurd h hbackslash) (fun _ _ h => absurd h hbackslash),
      if_neg hcontrol]
    exact hmap _

/-- The code points of a text are read from its escapes, up to the closing quote. -/
theorem readPoints_flatMap_escapeChar (text rest : List Char) :
    readPoints (text.flatMap escapeChar ++ '"' :: rest) = some (text.map Char.toNat, rest) := by
  induction text with
  | nil => rfl
  | cons c text ih =>
    rw [List.flatMap_cons, List.append_assoc, readPoints_escapeChar, ih]
    rfl

/-- A character is no half of a surrogate pair. -/
theorem not_isSurrogate (c : Char) :
    isLeading c.toNat = false ∧ isTrailing c.toNat = false := by
  have hvalid : c.toNat < 0xD800 ∨ 0xDFFF < c.toNat ∧ c.toNat < 0x110000 := c.valid
  simp only [isLeading, isTrailing, Bool.and_eq_false_iff, decide_eq_false_iff_not]
  omega

/-- The code points of a text are put together as this text. -/
theorem joinSurrogates_map_toNat (text : List Char) :
    joinSurrogates (text.map Char.toNat) = some text := by
  induction text with
  | nil => rfl
  | cons c text ih =>
    obtain ⟨hleading, htrailing⟩ := not_isSurrogate c
    cases text with
    | nil => simp [joinSurrogates, hleading, htrailing]
    | cons d text =>
      rw [List.map_cons, List.map_cons] at *
      rw [joinSurrogates, hleading, htrailing, if_neg Bool.false_ne_true,
        if_neg Bool.false_ne_true, ih, Char.ofNat_toNat]
      rfl

end RecordQuery.StringLiteral
