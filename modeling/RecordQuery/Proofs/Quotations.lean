import Mathlib.Logic.Function.Basic
import RecordQuery.Proofs.Json.Literals
import RecordQuery.Proofs.Runs
import RecordQuery.Text.Quoted

/-!
# Reading quotations back

A quotation is read back character by character. Every character is read from what stands for it,
whatever follows, so no two texts have the same quotation.
-/

namespace RecordQuery.Text

open StringLiteral

/-! ## Hexadecimal numerals -/

/-- Whether a character is a hexadecimal digit. -/
def isHexDigit (c : Char) : Bool :=
  (hexDigit? c).isSome

/-- The number that a run of hexadecimal digits spells. -/
def hexValue (digits : List Char) : Nat :=
  digits.foldl (fun value c => 16 * value + (hexDigit? c).getD 0) 0

/-- One more digit is spelled behind sixteen times the others. -/
theorem hexValue_append_digitChar (digits : List Char) {n : Nat} (hn : n < 16) :
    hexValue (digits ++ [n.digitChar]) = 16 * hexValue digits + n := by
  rw [hexValue, List.foldl_append, List.foldl_cons, List.foldl_nil, hexDigit?_digitChar n hn]
  rfl

/-- A hexadecimal numeral consists of digits and spells its number. -/
theorem spells_toDigits (n : Nat) :
    (∀ c ∈ Nat.toDigits 16 n, isHexDigit c = true) ∧ hexValue (Nat.toDigits 16 n) = n := by
  have hdigit : ∀ m < 16, isHexDigit m.digitChar = true := by decide
  induction n using Nat.strongRecOn with
  | ind n ih =>
    by_cases hlt : n < 16
    · rw [Nat.toDigits_of_lt_base hlt]
      exact ⟨List.forall_mem_singleton.mpr (hdigit n hlt),
        (hexValue_append_digitChar [] hlt).trans (Nat.zero_add n)⟩
    · obtain ⟨hhex, hvalue⟩ := ih (n / 16) (by omega)
      have hrem : n % 16 < 16 := Nat.mod_lt n (by decide)
      rw [Nat.toDigits_of_base_le (by decide) (by omega)]
      refine ⟨List.forall_mem_append.mpr ⟨hhex, List.forall_mem_singleton.mpr (hdigit _ hrem)⟩, ?_⟩
      rw [hexValue_append_digitChar _ hrem, hvalue, Nat.div_add_mod]

/-! ## Quotations -/

/-- The character for which a letter behind a backslash stands. -/
def quotedLetter? : Char → Option Char
  | '"' => some '"'
  | '\\' => some '\\'
  | 'n' => some '\n'
  | 'r' => some '\r'
  | 't' => some '\t'
  | '0' => some '\x00'
  | _ => none

/-- The character that stands at the head of a quoted text, and what follows. -/
def readQuoted? : List Char → Option (Char × List Char)
  | [] => none
  | '\\' :: 'u' :: '\x7b' :: rest =>
    some (Char.ofNat (hexValue (rest.takeWhile isHexDigit)), (rest.dropWhile isHexDigit).tail)
  | '\\' :: letter :: rest => (quotedLetter? letter).map (·, rest)
  | c :: rest => some (c, rest)

/-- A character is read from its code point in braces. -/
theorem readQuoted?_codePoint (c : Char) (rest : List Char) :
    readQuoted? ('\\' :: 'u' :: '\x7b' :: (Nat.toDigits 16 c.toNat ++ '\x7d' :: rest)) =
      some (c, rest) := by
  obtain ⟨hhex, hvalue⟩ := spells_toDigits c.toNat
  have hbrace : Stops isHexDigit ('\x7d' :: rest) := stops_cons (by decide)
  obtain ⟨hdigits, hafter⟩ := span_eq_iff.mpr ⟨rfl, hhex, hbrace⟩
  rw [readQuoted?, hdigits, hafter, hvalue, Char.ofNat_toNat, List.tail_cons]

/-- Every character is read from what stands for it in a quotation, whatever follows. -/
theorem readQuoted?_quoteChar (c : Char) (rest : List Char) :
    readQuoted? (quoteChar c ++ rest) = some (c, rest) := by
  unfold quoteChar
  split_ifs with hquote hbackslash hn hr ht hzero hspelled
  · rw [hquote]; rfl
  · rw [hbackslash]; rfl
  · rw [hn]; rfl
  · rw [hr]; rfl
  · rw [ht]; rfl
  · rw [← Char.ofNat_toNat c, hzero]; rfl
  · rw [List.append_assoc, List.append_assoc]
    exact readQuoted?_codePoint c rest
  · rw [List.singleton_append, readQuoted?.eq_4 c rest (fun _ h => absurd h hbackslash)
      (fun _ _ h => absurd h hbackslash)]

/-- Texts that are read back character by character from what stands for each are told apart. -/
theorem flatMap_injective {α β : Type} {spell : α → List β} {read : List β → Option (α × List β)}
    (hnil : read [] = none) (hread : ∀ a rest, read (spell a ++ rest) = some (a, rest)) :
    Function.Injective (List.flatMap spell) := by
  have hne : ∀ a items, (a :: items).flatMap spell ≠ [] := by
    intro a items hempty
    have hfirst := hread a (items.flatMap spell)
    rw [← List.flatMap_cons, hempty, hnil] at hfirst
    cases hfirst
  intro items others hsame
  induction items generalizing others with
  | nil =>
    cases others with
    | nil => rfl
    | cons other others => exact absurd hsame.symm (hne other others)
  | cons item items ih =>
    cases others with
    | nil => exact absurd hsame (hne item items)
    | cons other others =>
      have hfirst := hread item (items.flatMap spell)
      rw [← List.flatMap_cons, hsame, List.flatMap_cons, hread, Option.some.injEq,
        Prod.mk.injEq] at hfirst
      obtain ⟨rfl, hrest⟩ := hfirst
      rw [ih hrest.symm]

/-- No two texts have the same quotation. -/
theorem quote_injective : Function.Injective quote := by
  intro text other hsame
  rw [quote, quote, String.append_left_inj, String.append_right_inj, String.ofList_inj] at hsame
  exact String.toList_inj.mp (flatMap_injective rfl readQuoted?_quoteChar hsame)

end RecordQuery.Text
