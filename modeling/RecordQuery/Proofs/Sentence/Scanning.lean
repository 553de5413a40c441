import RecordQuery.Proofs.Runs
import RecordQuery.Proofs.Sentence.Basic

/-!
# Reading the parts of a condition

A condition is read from left to right: the longest run of characters that a path may have, the sign
of an operator or the name of a method, and the digits of a slot. Each reader is characterized by
what stands at the head of the text that it reads.
-/

namespace RecordQuery

open Text

/-- The item whose spelling stands at the head of a text, and what follows it. -/
def takeSpelling? {α : Type} (spell : α → List Char) (items : List α) (text : List Char) :
    Option (α × List Char) :=
  items.findSome? fun item => ((spell item).isPrefixOf? text).map (item, ·)

/-- If no item is spelled as the beginning of another one, then an item is read where its spelling
stands. -/
theorem takeSpelling?_eq_some_iff {α : Type} {spell : α → List Char} {items : List α}
    (hfree : ∀ a ∈ items, ∀ b ∈ items, spell a <+: spell b → a = b) {text rest : List Char}
    {item : α} :
    takeSpelling? spell items text = some (item, rest) ↔
      item ∈ items ∧ spell item ++ rest = text := by
  have hread : ∀ a b suffix, ((spell a).isPrefixOf? text).map (a, ·) = some (b, suffix) ↔
      a = b ∧ spell a ++ suffix = text := by
    intro a b suffix
    rw [Option.map_eq_some_iff]
    constructor
    · rintro ⟨_, hprefix, heq⟩
      obtain ⟨rfl, rfl⟩ := Prod.mk.inj heq
      exact ⟨rfl, List.isPrefixOf?_eq_some_iff_append_eq.mp hprefix⟩
    · rintro ⟨rfl, htext⟩
      exact ⟨suffix, List.isPrefixOf?_eq_some_iff_append_eq.mpr htext, rfl⟩
  constructor
  · intro hfind
    obtain ⟨a, ha, hsome⟩ := List.exists_of_findSome?_eq_some hfind
    obtain ⟨rfl, htext⟩ := (hread a item rest).mp hsome
    exact ⟨ha, htext⟩
  · rintro ⟨hitem, htext⟩
    cases hfind : takeSpelling? spell items text with
    | none =>
      have hnone := List.findSome?_eq_none_iff.mp hfind item hitem
      rw [(hread item item rest).mpr ⟨rfl, htext⟩] at hnone
      cases hnone
    | some found =>
      obtain ⟨other, suffix⟩ := found
      obtain ⟨a, ha, hsome⟩ := List.exists_of_findSome?_eq_some hfind
      obtain ⟨rfl, hother⟩ := (hread a other suffix).mp hsome
      -- Both spellings are beginnings of the text, so one is a beginning of the other.
      have hsame : a = item := by
        rcases List.prefix_or_prefix_of_prefix (hother ▸ List.prefix_append _ _)
          (htext ▸ List.prefix_append _ _) with hprefix | hprefix
        · exact hfree a ha item hitem hprefix
        · exact (hfree item hitem a ha hprefix).symm
      subst hsame
      rw [List.append_cancel_left (hother.trans htext.symm)]

/-- The slot whose digits stand at the head of a text, and what follows it. -/
def takeSlot? (text : List Char) : Option (Nat × List Char) :=
  let slot := Number.digitsValue (text.takeWhile Char.isDigit)
  if (toString slot).toList = text.takeWhile Char.isDigit then
    some (slot, text.dropWhile Char.isDigit)
  else none

/-- A slot is read where its digits stand, and no further digit. -/
theorem takeSlot?_eq_some_iff {text rest : List Char} {slot : Nat} :
    takeSlot? text = some (slot, rest) ↔
      (toString slot).toList ++ rest = text ∧ Stops Char.isDigit rest := by
  unfold takeSlot?
  constructor
  · intro htake
    dsimp only at htake
    split at htake
    · next hdigits =>
      obtain ⟨rfl, rfl⟩ := Prod.mk.inj (Option.some.inj htake)
      obtain ⟨htext, _, hstops⟩ := span_eq_iff.mp ⟨rfl, rfl⟩
      exact ⟨by rw [hdigits]; exact htext, hstops⟩
    · cases htake
  · rintro ⟨htext, hstops⟩
    obtain ⟨hdigits, hrest⟩ :=
      span_eq_iff.mpr ⟨htext, fun c hc => isDigit_of_mem_toString hc, hstops⟩
    rw [hdigits, hrest, digitsValue_toString]
    exact if_pos rfl

/-- The slot in the argument of a call at the head of a text, up to the end of the call, and what
follows it. -/
def takeArgument? (text : List Char) : Option (Nat × List Char) := do
  let rest ← ['(', '@'].isPrefixOf? text
  let (slot, rest) ← takeSlot? rest
  let rest ← [')', ')'].isPrefixOf? rest
  some (slot, rest)

/-- An argument is read where its text stands. -/
theorem takeArgument?_eq_some_iff {text rest : List Char} {slot : Nat} :
    takeArgument? text = some (slot, rest) ↔
      '(' :: '@' :: ((toString slot).toList ++ ')' :: ')' :: rest) = text := by
  constructor
  · intro htake
    obtain ⟨marked, hmark, htake⟩ := Option.bind_eq_some_iff.mp htake
    obtain ⟨⟨other, closing⟩, hslot, htake⟩ := Option.bind_eq_some_iff.mp htake
    obtain ⟨last, hclosing, htake⟩ := Option.bind_eq_some_iff.mp htake
    obtain ⟨rfl, rfl⟩ := Prod.mk.inj (Option.some.inj htake)
    rw [List.isPrefixOf?_eq_some_iff_append_eq] at hmark hclosing
    obtain ⟨hdigits, _⟩ := takeSlot?_eq_some_iff.mp hslot
    rw [← hmark, ← hdigits, ← hclosing]
    rfl
  · rintro rfl
    have hslot : takeSlot? ((toString slot).toList ++ ')' :: ')' :: rest) =
        some (slot, ')' :: ')' :: rest) :=
      takeSlot?_eq_some_iff.mpr ⟨rfl, stops_cons rfl⟩
    have hclosing : [')', ')'].isPrefixOf? (')' :: ')' :: rest) = some rest :=
      List.isPrefixOf?_eq_some_iff_append_eq.mpr rfl
    refine Option.bind_eq_some_iff.mpr ⟨_, hslot, ?_⟩
    exact Option.bind_eq_some_iff.mpr ⟨_, hclosing, rfl⟩

/-- The connective whose token and a blank stand at the head of a text, and what follows them. -/
def Connective.takeToken? : List Char → Option (Connective × List Char) :=
  takeSpelling? (fun connective => connective.token.toList ++ [' ']) [.and, .or]

/-- A connective is read where its token stands before a blank. -/
theorem Connective.takeToken?_eq_some_iff {text rest : List Char} {connective : Connective} :
    takeToken? text = some (connective, rest) ↔
      connective.token.toList ++ ' ' :: rest = text := by
  have hmem : connective ∈ [and, or] := by cases connective <;> decide
  rw [takeToken?, takeSpelling?_eq_some_iff (by decide)]
  simp [hmem]

namespace Operator

/-- The sign of an operator as it stands behind a field. That of a comparison goes on to the mark of
a parameter. -/
def sign (op : Operator) : List Char :=
  ' ' :: op.symbol.toList ++ if op.kind = .comparison then [' ', '@'] else []

/-- The name of a method as it stands behind a field, from the last character to the dot. -/
def reversedName (op : Operator) : List Char :=
  ('.' :: op.symbol.toList).reverse

/-- The list of all operators is complete. -/
theorem mem_all (op : Operator) : op ∈ all := by
  cases op <;> decide

/-- The operator whose sign stands at the head of a text, and what follows it. -/
def takeSign? : List Char → Option (Operator × List Char) :=
  takeSpelling? sign (all.filter fun op => op.kind ≠ .method)

/-- An operator that is no method is read where its sign stands. -/
theorem takeSign?_eq_some_iff {text rest : List Char} {op : Operator} :
    takeSign? text = some (op, rest) ↔ op.kind ≠ .method ∧ op.sign ++ rest = text := by
  rw [takeSign?, takeSpelling?_eq_some_iff (by decide)]
  simp [mem_all]

/-- The method whose name is the last part of a word, and the field before it. -/
def takeName? (negated : Bool) (word : List Char) : Option (Operator × List Char) :=
  (takeSpelling? reversedName
    (all.filter fun op => op.kind = .method ∧ op.isNegated = negated) word.reverse).map
    fun (op, field) => (op, field.reverse)

/-- A method is read where its name ends a word. -/
theorem takeName?_eq_some_iff {negated : Bool} {word field : List Char} {op : Operator} :
    takeName? negated word = some (op, field) ↔
      op.kind = .method ∧ op.isNegated = negated ∧ field ++ '.' :: op.symbol.toList = word := by
  have hfree : ∀ a ∈ all.filter fun op => op.kind = .method ∧ op.isNegated = negated,
      ∀ b ∈ all.filter fun op => op.kind = .method ∧ op.isNegated = negated,
      a.reversedName <+: b.reversedName → a = b := by
    cases negated <;> decide
  have hname : ∀ back : List Char, op.reversedName ++ back = word.reverse ↔
      back.reverse ++ '.' :: op.symbol.toList = word := by
    intro back
    rw [reversedName, ← List.reverse_inj]
    simp
  rw [takeName?, Option.map_eq_some_iff]
  constructor
  · rintro ⟨⟨_, back⟩, htake, heq⟩
    obtain ⟨rfl, rfl⟩ := Prod.mk.inj heq
    obtain ⟨hmem, hword⟩ := (takeSpelling?_eq_some_iff hfree).mp htake
    have hkind := (List.mem_filter.mp hmem).2
    rw [decide_eq_true_iff] at hkind
    exact ⟨hkind.1, hkind.2, (hname back).mp hword⟩
  · rintro ⟨hkind, hnegated, hword⟩
    have hmem : op ∈ all.filter fun op => op.kind = .method ∧ op.isNegated = negated :=
      List.mem_filter.mpr ⟨mem_all op, decide_eq_true ⟨hkind, hnegated⟩⟩
    refine ⟨(op, field.reverse), ?_, by simp⟩
    refine (takeSpelling?_eq_some_iff hfree).mpr ⟨hmem, (hname _).mpr ?_⟩
    rwa [List.reverse_reverse]

end Operator

end RecordQuery
