import RecordQuery.Json.Basic
import RecordQuery.Json.StringLiteral

/-!
# Tokens of a JSON text

A JSON text is a sequence of tokens with gaps between them. Reading the tokens decides how numbers
and strings are spelled; which sequences of tokens form a value is left to `Document.ofTokens?`.
-/

namespace RecordQuery

/-- A token of a JSON text. -/
inductive Token where
  | openObject
  | closeObject
  | openArray
  | closeArray
  | colon
  | comma
  | null
  | bool (value : Bool)
  | number (value : Number)
  | string (value : Option String)
  deriving Repr, DecidableEq

namespace Token

/-- The characters that may stand between tokens. -/
def isGap (c : Char) : Bool :=
  c == ' ' || c == '\n' || c == '\r' || c == '\t'

/-- The digits before the point of a number: a lone zero, or digits that start with another. -/
def takeWhole : List Char → Option (List Char × List Char)
  | '0' :: rest => some (['0'], rest)
  | text =>
    let (digits, rest) := Number.takeDigits text
    if digits = [] then none else some (digits, rest)

/-- The digits behind the point of a number, at least one, and what follows them. There are none
where no such point stands. -/
def takeFraction (text : List Char) : List Char × List Char :=
  match text with
  | '.' :: rest =>
    let (digits, tail) := Number.takeDigits rest
    if digits = [] then ([], text) else (digits, tail)
  | _ => ([], text)

/-- A number behind its sign, and what follows it. -/
def readUnsigned (negative : Bool) (text : List Char) : Option (Number × List Char) := do
  let (whole, afterWhole) ← takeWhole text
  let (fraction, tail) := takeFraction afterWhole
  match Number.takeExponent tail with
  | some (exponent, rest) => some (.decimal (.ofDigits negative whole fraction exponent), rest)
  | none =>
    let value := Number.digitsValue whole
    if fraction = [] ∧ ¬(negative ∧ value = 0) then
      some (.integer (if negative then -(value : Int) else value), tail)
    else some (.decimal (.ofDigits negative whole fraction 0), tail)

/-- A number at the head of a text, and what follows it. -/
def readNumber : List Char → Option (Number × List Char)
  | '-' :: text => readUnsigned true text
  | text => readUnsigned false text

/-- The token at the head of a text, and what follows it. -/
def read : List Char → Option (Token × List Char)
  | '\x7b' :: rest => some (openObject, rest)
  | '\x7d' :: rest => some (closeObject, rest)
  | '[' :: rest => some (openArray, rest)
  | ']' :: rest => some (closeArray, rest)
  | ':' :: rest => some (colon, rest)
  | ',' :: rest => some (comma, rest)
  | 'n' :: 'u' :: 'l' :: 'l' :: rest => some (null, rest)
  | 't' :: 'r' :: 'u' :: 'e' :: rest => some (bool true, rest)
  | 'f' :: 'a' :: 'l' :: 's' :: 'e' :: rest => some (bool false, rest)
  | '"' :: rest => do
    let (points, rest) ← StringLiteral.readPoints rest
    some (string ((StringLiteral.joinSurrogates points).map String.ofList), rest)
  | text => (readNumber text).map fun (value, rest) => (number value, rest)

/-! ## A token takes at least one character -/

theorem length_takeDigits_le (text : List Char) :
    (Number.takeDigits text).2.length ≤ text.length :=
  (List.dropWhile_suffix _).length_le

theorem length_takeDigits_lt {text : List Char} (hdigits : (Number.takeDigits text).1 ≠ []) :
    (Number.takeDigits text).2.length < text.length := by
  have hsplit : text.takeWhile Char.isDigit ++ text.dropWhile Char.isDigit = text :=
    List.takeWhile_append_dropWhile
  have hlength := congrArg List.length hsplit
  have hpositive := List.length_pos_iff.mpr hdigits
  simp only [List.length_append, Number.takeDigits] at *
  omega

theorem length_takeExponent_le {text rest : List Char} {exponent : Int}
    (hread : Number.takeExponent text = some (exponent, rest)) : rest.length ≤ text.length := by
  cases text with
  | nil => simp [Number.takeExponent] at hread
  | cons mark text =>
    simp only [Number.takeExponent] at hread
    split at hread
    · split at hread
      · cases hread
      · obtain ⟨-, rfl⟩ := Prod.mk.inj (Option.some.inj hread)
        have hdigits := length_takeDigits_le (Number.takeSign text).2
        have hsign : (Number.takeSign text).2.length ≤ text.length := by
          unfold Number.takeSign
          split <;> simp
        simp only [List.length_cons]
        omega
    · cases hread

theorem length_takeWhole_lt {text digits rest : List Char}
    (hread : takeWhole text = some (digits, rest)) : rest.length < text.length := by
  unfold takeWhole at hread
  split at hread
  · obtain ⟨-, rfl⟩ := Prod.mk.inj (Option.some.inj hread)
    simp
  · simp only at hread
    split at hread
    · cases hread
    · next hdigits =>
      obtain ⟨-, rfl⟩ := Prod.mk.inj (Option.some.inj hread)
      exact length_takeDigits_lt hdigits

theorem length_takeFraction_le (text : List Char) : (takeFraction text).2.length ≤ text.length := by
  unfold takeFraction
  split
  · next rest =>
    have := length_takeDigits_le rest
    simp only
    split <;> simp only [List.length_cons] <;> omega
  · simp

theorem length_readUnsigned_lt {negative : Bool} {text rest : List Char} {value : Number}
    (hread : readUnsigned negative text = some (value, rest)) : rest.length < text.length := by
  unfold readUnsigned at hread
  cases hwhole : takeWhole text with
  | none => simp [hwhole] at hread
  | some split =>
    obtain ⟨whole, afterWhole⟩ := split
    have hlt := length_takeWhole_lt hwhole
    have hle := length_takeFraction_le afterWhole
    simp only [hwhole, Option.bind_eq_bind, Option.bind_some] at hread
    split at hread
    · next hexponent =>
      have := length_takeExponent_le hexponent
      obtain ⟨-, rfl⟩ := Prod.mk.inj (Option.some.inj hread)
      omega
    · split at hread <;> obtain ⟨-, rfl⟩ := Prod.mk.inj (Option.some.inj hread) <;> omega

theorem length_readPoints_le {text rest : List Char} {points : List Nat}
    (hread : StringLiteral.readPoints text = some (points, rest)) :
    rest.length ≤ text.length := by
  fun_induction StringLiteral.readPoints text generalizing points rest with
  | case1 => cases hread
  | case2 rest' =>
    obtain ⟨-, rfl⟩ := Prod.mk.inj (Option.some.inj hread)
    simp
  | case3 a b c d rest' ih =>
    simp only [Option.bind_eq_bind, Option.bind_eq_some_iff] at hread
    obtain ⟨_, _, ⟨_, _⟩, htail, heq⟩ := hread
    obtain ⟨-, rfl⟩ := Prod.mk.inj (Option.some.inj heq)
    have := ih htail
    simp only [List.length_cons]
    omega
  | case4 letter rest' _ ih =>
    simp only [Option.bind_eq_bind, Option.bind_eq_some_iff] at hread
    obtain ⟨_, _, ⟨_, _⟩, htail, heq⟩ := hread
    obtain ⟨-, rfl⟩ := Prod.mk.inj (Option.some.inj heq)
    have := ih htail
    simp only [List.length_cons]
    omega
  | case5 => cases hread
  | case6 c rest' _ _ _ _ ih =>
    simp only [Option.bind_eq_bind, Option.bind_eq_some_iff] at hread
    obtain ⟨⟨_, _⟩, htail, heq⟩ := hread
    obtain ⟨-, rfl⟩ := Prod.mk.inj (Option.some.inj heq)
    have := ih htail
    simp only [List.length_cons]
    omega

theorem length_readNumber_lt {text rest : List Char} {value : Number}
    (hread : readNumber text = some (value, rest)) : rest.length < text.length := by
  unfold readNumber at hread
  split at hread
  · have := length_readUnsigned_lt hread
    simp only [List.length_cons]
    omega
  · exact length_readUnsigned_lt hread

theorem length_read_lt {text rest : List Char} {token : Token}
    (hread : read text = some (token, rest)) : rest.length < text.length := by
  unfold read at hread
  split at hread
  case h_10 =>
    simp only [Option.bind_eq_bind, Option.bind_eq_some_iff] at hread
    obtain ⟨⟨_, _⟩, hpoints, heq⟩ := hread
    obtain ⟨-, rfl⟩ := Prod.mk.inj (Option.some.inj heq)
    have := length_readPoints_le hpoints
    simp only [List.length_cons]
    omega
  case h_11 =>
    rw [Option.map_eq_some_iff] at hread
    obtain ⟨⟨_, _⟩, hnumber, heq⟩ := hread
    obtain ⟨-, rfl⟩ := Prod.mk.inj heq
    exact length_readNumber_lt hnumber
  all_goals
    obtain ⟨-, rfl⟩ := Prod.mk.inj (Option.some.inj hread)
    simp only [List.length_cons]
    omega

/-- The tokens of a text. -/
def scan (text : List Char) : Option (List Token) :=
  match _hgap : text.dropWhile isGap with
  | [] => some []
  | c :: tail =>
    match _hread : read (c :: tail) with
    | none => none
    | some (token, rest) => (scan rest).map (token :: ·)
termination_by text.length
decreasing_by
  have hshorter := length_read_lt _hread
  have hdrop := (List.dropWhile_suffix (l := text) isGap).length_le
  rw [_hgap] at hdrop
  omega

end Token

end RecordQuery
