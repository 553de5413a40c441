import Mathlib.Data.List.Induction
import RecordQuery.Proofs.Outcome
import RecordQuery.Proofs.PathText
import RecordQuery.Proofs.Runs

/-!
# The grammar of paths

A path is segments with dots between them, a segment is a name and any number of positions behind
it, and a position is digits in brackets. Names start with an ASCII letter or an underscore and go
on with letters, underscores and ASCII digits. The digits of a position spell a number that a word
holds; there may be zeros in front. The grammar is given here without regard to a reader, together
with the steps that a text spells. The reader of paths accepts exactly the texts of the grammar, and
reads the steps that they spell.
-/

namespace RecordQuery

/-- An ASCII letter or an underscore. -/
def IsLetter (c : Char) : Prop :=
  'A' ≤ c ∧ c ≤ 'Z' ∨ 'a' ≤ c ∧ c ≤ 'z' ∨ c = '_'

/-- An ASCII digit. -/
def IsDigit (c : Char) : Prop :=
  '0' ≤ c ∧ c ≤ '9'

/-- A name is a letter, and letters and digits behind it. -/
inductive SpellsName : List Char → Prop
  | letter {c : Char} : IsLetter c → SpellsName [c]
  | append {name : List Char} {c : Char} :
    SpellsName name → IsLetter c ∨ IsDigit c → SpellsName (name ++ [c])

/-- Digits, at least one of them, and the number that they spell. -/
inductive SpellsNumber : List Char → Nat → Prop
  | digit {c : Char} : IsDigit c → SpellsNumber [c] (c.toNat - '0'.toNat)
  | append {digits : List Char} {value : Nat} {c : Char} :
    SpellsNumber digits value → IsDigit c →
    SpellsNumber (digits ++ [c]) (10 * value + (c.toNat - '0'.toNat))

/-- Positions in brackets, one behind the other. -/
inductive SpellsPositions : List Char → List Nat → Prop
  | nil : SpellsPositions [] []
  | cons {digits rest : List Char} {position : Nat} {positions : List Nat} :
    SpellsNumber digits position → position ≤ Number.maxWord → SpellsPositions rest positions →
    SpellsPositions ('[' :: (digits ++ ']' :: rest)) (position :: positions)

/-- A name with positions behind it, and the steps into the member of this name and to the
positions. -/
inductive SpellsSegment : List Char → List Step → Prop
  | mk {name brackets : List Char} {positions : List Nat} :
    SpellsName name → SpellsPositions brackets positions →
    SpellsSegment (name ++ brackets) (.key (String.ofList name) :: positions.map .position)

/-- Segments with dots between them, and their steps in order. -/
inductive SpellsPath : List Char → List Step → Prop
  | segment {text : List Char} {steps : List Step} :
    SpellsSegment text steps → SpellsPath text steps
  | dot {text rest : List Char} {steps others : List Step} :
    SpellsSegment text steps → SpellsPath rest others →
    SpellsPath (text ++ '.' :: rest) (steps ++ others)

instance (c : Char) : Decidable (IsDigit c) :=
  inferInstanceAs (Decidable (_ ∧ _))

/-! ## Characters and numbers -/

theorem isNameStart_iff {c : Char} : Segment.isNameStart c = true ↔ IsLetter c := by
  have hupper : c.isUpper = true ↔ 'A' ≤ c ∧ c ≤ 'Z' := decide_eq_true_iff
  have hlower : c.isLower = true ↔ 'a' ≤ c ∧ c ≤ 'z' :=
    Bool.and_eq_true_iff.trans (and_congr decide_eq_true_iff decide_eq_true_iff)
  have halpha : c.isAlpha = true ↔ c.isUpper = true ∨ c.isLower = true := Bool.or_eq_true_iff
  simp only [Segment.isNameStart, Bool.or_eq_true, halpha, hupper, hlower, beq_iff_eq, IsLetter,
    or_assoc]

theorem isDigit_iff {c : Char} : c.isDigit = true ↔ IsDigit c := by
  simp only [Char.isDigit, IsDigit, Char.le_def, Bool.and_eq_true, decide_eq_true_iff, ge_iff_le]

theorem isNamePart_iff {c : Char} : Segment.isNamePart c = true ↔ IsLetter c ∨ IsDigit c := by
  rw [← isNameStart_iff, ← isDigit_iff]
  simp only [Segment.isNamePart, Segment.isNameStart, Char.isAlphanum, Bool.or_eq_true]
  tauto

/-- The names of the grammar are the names of members. -/
theorem spellsName_iff {name : List Char} : SpellsName name ↔ Segment.isName name = true := by
  constructor
  · intro hname
    induction hname with
    | letter hc => simp [Segment.isName, isNameStart_iff.mpr hc]
    | @append name c _ hc ih =>
      cases name with
      | nil => cases ih
      | cons first rest =>
        rw [Segment.isName, Bool.and_eq_true] at ih
        simp [Segment.isName, ih.1, ih.2, isNamePart_iff.mpr hc]
  · intro hname
    cases name with
    | nil => cases hname
    | cons first rest =>
      rw [Segment.isName, Bool.and_eq_true, List.all_eq_true] at hname
      obtain ⟨hfirst, hrest⟩ := hname
      induction rest using List.reverseRecOn with
      | nil => exact .letter (isNameStart_iff.mp hfirst)
      | append_singleton rest c ih =>
        have hname := ih fun d hd => hrest d (List.mem_append_left [c] hd)
        exact hname.append (isNamePart_iff.mp (hrest c (by simp)))

/-- One more digit makes ten times the number and the digit. -/
theorem digitsValue_append_singleton (digits : List Char) (c : Char) :
    Number.digitsValue (digits ++ [c]) =
      10 * Number.digitsValue digits + (c.toNat - '0'.toNat) := by
  rw [Number.digitsValue, Nat.ofDigitChars_append, Nat.ofDigitChars_cons, Nat.ofDigitChars_nil]
  rfl

/-- A run of digits spells its value. -/
theorem spellsNumber_iff {digits : List Char} {value : Nat} :
    SpellsNumber digits value ↔
      digits ≠ [] ∧ (∀ c ∈ digits, IsDigit c) ∧ value = Number.digitsValue digits := by
  constructor
  · intro hnumber
    induction hnumber with
    | @digit c hc =>
      refine ⟨List.cons_ne_nil c [], by simpa using hc, ?_⟩
      exact (Nat.zero_add _).symm.trans (digitsValue_append_singleton [] c).symm
    | @append digits value c _ hc ih =>
      obtain ⟨_, hdigits, rfl⟩ := ih
      refine ⟨by simp, ?_, (digitsValue_append_singleton digits c).symm⟩
      rw [List.forall_mem_append, List.forall_mem_singleton]
      exact ⟨hdigits, hc⟩
  · rintro ⟨hne, hdigits, rfl⟩
    induction digits using List.reverseRecOn with
    | nil => exact absurd rfl hne
    | append_singleton digits c ih =>
      rw [List.forall_mem_append, List.forall_mem_singleton] at hdigits
      obtain ⟨hdigits, hc⟩ := hdigits
      rw [digitsValue_append_singleton]
      by_cases hfirst : digits = []
      · subst hfirst
        have hdigit := SpellsNumber.digit hc
        rwa [← Nat.zero_add (c.toNat - _)] at hdigit
      · exact (ih hfirst hdigits).append hc

/-- The text of a number spells this number, and no other one. -/
theorem spellsNumber_toString_iff {n value : Nat} :
    SpellsNumber (toString n).toList value ↔ value = n := by
  rw [spellsNumber_iff, digitsValue_toString]
  constructor
  · rintro ⟨_, _, hvalue⟩
    exact hvalue
  · intro hvalue
    have hdigits : ∀ c ∈ (toString n).toList, IsDigit c := fun c hc =>
      isDigit_iff.mp (isDigit_of_mem_toString hc)
    exact ⟨toList_toString_ne_nil n, hdigits, hvalue⟩

/-- Among the digits of a number there is nothing else. -/
theorem SpellsNumber.not_mem {digits : List Char} {value : Nat}
    (hnumber : SpellsNumber digits value) {c : Char} (hc : ¬ IsDigit c) : c ∉ digits :=
  fun hmem => hc ((spellsNumber_iff.mp hnumber).2.1 c hmem)

/-! ## Splitting texts -/

/-- Induction on the pieces of a text between separators. -/
@[elab_as_elim] theorem splitting_induction (separator : Char) {P : List Char → Prop}
    (last : ∀ text, separator ∉ text → P text)
    (more : ∀ front rest, separator ∉ front → P rest → P (front ++ separator :: rest))
    (text : List Char) : P text := by
  induction hlength : text.length using Nat.strong_induction_on generalizing text with
  | _ length ih =>
    by_cases hmem : separator ∈ text
    · obtain ⟨front, rest, rfl, hfront⟩ := List.eq_append_cons_of_mem hmem
      rw [List.length_append, List.length_cons] at hlength
      exact more front rest hfront (ih rest.length (by omega) rest rfl)
    · exact last text hmem

/-- A piece between separators is no longer than the text. -/
theorem length_le_of_mem_splitOn {separator : Char} {text piece : List Char}
    (hpiece : piece ∈ text.splitOn separator) : piece.length ≤ text.length := by
  induction text using splitting_induction separator with
  | last text htext =>
    rw [List.splitOn_eq_singleton htext, List.mem_singleton] at hpiece
    rw [hpiece]
  | more front rest hfront ih =>
    rw [List.splitOn_append_cons_self_of_not_mem hfront, List.mem_cons] at hpiece
    rw [List.length_append, List.length_cons]
    rcases hpiece with rfl | hpiece
    · exact Nat.le_add_right _ _
    · have hrest := ih hpiece
      omega

/-- A text goes on to the first character that is no longer of a kind, in one way only. -/
theorem eq_and_eq_of_append_eq {kind : Char → Bool} {word word' rest rest' : List Char}
    (hword : ∀ c ∈ word, kind c = true) (hrest : Text.Stops kind rest)
    (hword' : ∀ c ∈ word', kind c = true) (hrest' : Text.Stops kind rest')
    (heq : word ++ rest = word' ++ rest') : word = word' ∧ rest = rest' := by
  obtain ⟨htake, hdrop⟩ := Text.span_eq_iff.mpr ⟨rfl, hword, hrest⟩
  obtain ⟨htake', hdrop'⟩ := Text.span_eq_iff.mpr ⟨rfl, hword', hrest'⟩
  rw [heq] at htake hdrop
  exact ⟨htake.symm.trans htake', hdrop.symm.trans hdrop'⟩

/-- The characters of a text in which there is no separator differ from it. -/
theorem bne_of_not_mem {separator : Char} {text : List Char} (htext : separator ∉ text) :
    ∀ c ∈ text, (c != separator) = true :=
  fun _ hc => bne_iff_ne.mpr fun heq => htext (heq ▸ hc)

/-- A text has one first separator. -/
theorem eq_and_eq_of_append_cons {separator : Char} {front front' rest rest' : List Char}
    (hfront : separator ∉ front) (hfront' : separator ∉ front')
    (heq : front ++ separator :: rest = front' ++ separator :: rest') :
    front = front' ∧ rest = rest' := by
  have hstops : ∀ rest, Text.Stops (· != separator) (separator :: rest) := fun _ =>
    Text.stops_cons (by simp)
  obtain ⟨hsame, hrest⟩ := eq_and_eq_of_append_eq (bne_of_not_mem hfront) (hstops rest)
    (bne_of_not_mem hfront') (hstops rest') heq
  exact ⟨hsame, (List.cons.inj hrest).2⟩

/-! ## The reader -/

namespace Segment

/-- A position is read where digits stand before the closing bracket, whose number a word holds. -/
theorem readPosition?_eq_some_iff {text : List Char} {position : Nat} :
    readPosition? text = some position ↔
      ∃ digits, text = digits ++ [']'] ∧ SpellsNumber digits position ∧
        position ≤ Number.maxWord := by
  unfold readPosition?
  dsimp only
  constructor
  · intro hread
    split at hread
    · next hdigits =>
      obtain ⟨hlast, hne, hall, hle⟩ := hdigits
      obtain rfl := Option.some.inj hread
      refine ⟨text.dropLast, (List.dropLast_append_getLast? _ hlast).symm, ?_, hle⟩
      refine spellsNumber_iff.mpr ⟨hne, fun c hc => ?_, rfl⟩
      exact isDigit_iff.mp (List.all_eq_true.mp hall c hc)
    · cases hread
  · rintro ⟨digits, rfl, hnumber, hle⟩
    obtain ⟨hne, hdigits, rfl⟩ := spellsNumber_iff.mp hnumber
    have hall : digits.all Char.isDigit = true :=
      List.all_eq_true.mpr fun c hc => isDigit_iff.mpr (hdigits c hc)
    simp [hne, hall, hle]

end Segment

/-- Nothing spells no positions. -/
theorem spellsPositions_nil_iff {positions : List Nat} :
    SpellsPositions [] positions ↔ positions = [] :=
  ⟨fun hpositions => by cases hpositions; rfl, fun hnil => hnil ▸ .nil⟩

/-- The first of several positions, and the others. -/
theorem spellsPositions_cons_iff {tail : List Char} {positions : List Nat} :
    SpellsPositions ('[' :: tail) positions ↔ ∃ digits rest position others,
      tail = digits ++ ']' :: rest ∧ positions = position :: others ∧
        SpellsNumber digits position ∧ position ≤ Number.maxWord ∧ SpellsPositions rest others := by
  constructor
  · intro hpositions
    cases hpositions with
    | cons hnumber hle hrest => exact ⟨_, _, _, _, rfl, rfl, hnumber, hle, hrest⟩
  · rintro ⟨digits, rest, position, others, rfl, rfl, hnumber, hle, hrest⟩
    exact .cons hnumber hle hrest

/-- Nothing stands behind positions but another one, which starts with an opening bracket. -/
theorem SpellsPositions.eq_nil_or_cons {brackets : List Char} {positions : List Nat}
    (hpositions : SpellsPositions brackets positions) :
    brackets = [] ∧ positions = [] ∨ ∃ tail, brackets = '[' :: tail := by
  cases hpositions with
  | nil => exact .inl ⟨rfl, rfl⟩
  | cons => exact .inr ⟨_, rfl⟩

/-- A name ends in front of positions. -/
theorem SpellsPositions.stops {brackets : List Char} {positions : List Nat}
    (hpositions : SpellsPositions brackets positions) : Text.Stops (· != '[') brackets := by
  cases hpositions with
  | nil => exact Text.stops_nil _
  | cons => exact Text.stops_cons rfl

/-- Positions are read from the pieces between opening brackets. -/
theorem mapM_readPosition?_eq_some_iff {tail : List Char} {positions : List Nat} :
    (tail.splitOn '[').mapM Segment.readPosition? = some positions ↔
      SpellsPositions ('[' :: tail) positions := by
  rw [mapM_eq_some_iff_forall₂]
  induction tail using splitting_induction '[' generalizing positions with
  | last tail htail =>
    rw [List.splitOn_eq_singleton htail, List.forall₂_cons_left_iff, spellsPositions_cons_iff]
    simp only [List.forall₂_nil_left_iff, Segment.readPosition?_eq_some_iff]
    constructor
    · rintro ⟨position, _, ⟨digits, rfl, hnumber, hle⟩, rfl, rfl⟩
      exact ⟨digits, [], position, [], rfl, rfl, hnumber, hle, .nil⟩
    · rintro ⟨digits, rest, position, others, rfl, rfl, hnumber, hle, hrest⟩
      rcases hrest.eq_nil_or_cons with ⟨rfl, rfl⟩ | ⟨more, rfl⟩
      · exact ⟨position, [], ⟨digits, rfl, hnumber, hle⟩, rfl, rfl⟩
      · simp at htail
  | more front rest hfront ih =>
    rw [List.splitOn_append_cons_self_of_not_mem hfront, List.forall₂_cons_left_iff,
      spellsPositions_cons_iff]
    simp only [ih]
    simp only [Segment.readPosition?_eq_some_iff]
    constructor
    · rintro ⟨position, others, ⟨digits, rfl, hnumber, hle⟩, hothers, rfl⟩
      exact ⟨digits, '[' :: rest, position, others, by simp, rfl, hnumber, hle, hothers⟩
    · rintro ⟨digits, behind, position, others, htext, rfl, hnumber, hle, hbehind⟩
      have hopening : '[' ∉ digits ++ [']'] := by
        simpa using hnumber.not_mem (by decide)
      rcases hbehind.eq_nil_or_cons with ⟨rfl, _⟩ | ⟨more, rfl⟩
      · rw [← htext] at hopening
        simp at hopening
      · have hcut : (digits ++ [']']) ++ '[' :: more = front ++ '[' :: rest := by
          simpa using htext.symm
        obtain ⟨rfl, rfl⟩ := eq_and_eq_of_append_cons hopening hfront hcut
        exact ⟨position, others, ⟨digits, rfl, hnumber, hle⟩, hbehind, rfl⟩

/-- There is no opening bracket in a name. -/
theorem SpellsName.opening_not_mem {name : List Char} (hname : SpellsName name) : '[' ∉ name := by
  intro hmem
  have hpart := (Segment.isName_iff.mp (spellsName_iff.mp hname)).2 _ hmem
  cases hpart

section Segments

variable {name brackets text : List Char} {steps : List Step} (hname : '[' ∉ name)
  (hbrackets : Text.Stops (· != '[') brackets)

include hname hbrackets

/-- A segment is read from what stands in front of the first opening bracket and what follows. -/
theorem Segment.read?_append_eq_some_iff {segment : Segment} :
    read? (name ++ brackets) = some segment ↔ SpellsName name ∧
      segment.name = String.ofList name ∧ SpellsPositions brackets segment.positions := by
  obtain ⟨member, positions⟩ := segment
  cases brackets with
  | nil =>
    rw [List.append_nil, read?, List.splitOn_eq_singleton hname, spellsName_iff,
      spellsPositions_nil_iff]
    dsimp only
    split
    · next hisName => simp [hisName, eq_comm]
    · next hisName => simp [hisName]
  | cons c tail =>
    obtain rfl : c = '[' := by simpa using hbrackets c rfl
    rw [read?, List.splitOn_append_cons_self_of_not_mem hname, spellsName_iff,
      ← mapM_readPosition?_eq_some_iff]
    dsimp only
    split
    · next hisName =>
      cases (tail.splitOn '[').mapM readPosition? <;> simp [hisName, eq_comm]
    · next hisName => simp [hisName]

/-- A segment of the grammar is cut at its first opening bracket. -/
theorem spellsSegment_append_iff :
    SpellsSegment (name ++ brackets) steps ↔ SpellsName name ∧ ∃ positions,
      SpellsPositions brackets positions ∧
        steps = .key (String.ofList name) :: positions.map .position := by
  constructor
  · intro hsegment
    generalize htext : name ++ brackets = text at hsegment
    obtain ⟨hother, hpositions⟩ := hsegment
    obtain ⟨rfl, rfl⟩ := eq_and_eq_of_append_eq (bne_of_not_mem hname) hbrackets
      (bne_of_not_mem hother.opening_not_mem) hpositions.stops htext
    exact ⟨hother, _, hpositions, rfl⟩
  · rintro ⟨hspells, positions, hpositions, rfl⟩
    exact .mk hspells hpositions

end Segments

/-- Every text is a part without an opening bracket, and a rest that is empty or starts with one. -/
theorem exists_append_of_opening (text : List Char) : ∃ name brackets, text = name ++ brackets ∧
    '[' ∉ name ∧ Text.Stops (· != '[') brackets := by
  have hspan : text.takeWhile (· != '[') = text.takeWhile (· != '[') ∧
      text.dropWhile (· != '[') = text.dropWhile (· != '[') := ⟨rfl, rfl⟩
  obtain ⟨htext, hname, hbrackets⟩ := Text.span_eq_iff.mp hspan
  exact ⟨_, _, htext.symm, fun hmem => by simpa using hname _ hmem, hbrackets⟩

/-- The reader of segments accepts the segments of the grammar, and reads their steps. -/
theorem spellsSegment_iff {text : List Char} {steps : List Step} :
    SpellsSegment text steps ↔
      ∃ segment, Segment.read? text = some segment ∧ segment.steps = steps := by
  obtain ⟨name, brackets, rfl, hname, hbrackets⟩ := exists_append_of_opening text
  simp only [spellsSegment_append_iff hname hbrackets,
    Segment.read?_append_eq_some_iff hname hbrackets]
  constructor
  · rintro ⟨hspells, positions, hpositions, rfl⟩
    exact ⟨⟨_, _⟩, ⟨hspells, rfl, hpositions⟩, rfl⟩
  · rintro ⟨⟨member, positions⟩, ⟨hspells, rfl, hpositions⟩, rfl⟩
    exact ⟨hspells, positions, hpositions, rfl⟩

/-- There is no dot in a segment. -/
theorem SpellsSegment.dot_not_mem {text : List Char} {steps : List Step}
    (hsegment : SpellsSegment text steps) : '.' ∉ text := by
  obtain ⟨segment, hread, _⟩ := spellsSegment_iff.mp hsegment
  intro hmem
  have hpart := (Segment.isPart_of_read? hread).2 _ hmem
  cases hpart

/-- A path without a dot is a segment. -/
theorem spellsPath_iff_spellsSegment {text : List Char} {steps : List Step} (htext : '.' ∉ text) :
    SpellsPath text steps ↔ SpellsSegment text steps := by
  refine ⟨fun hpath => ?_, .segment⟩
  cases hpath with
  | segment hsegment => exact hsegment
  | dot => simp at htext

/-- A path is cut at its first dot. -/
theorem spellsPath_append_cons_iff {front rest : List Char} {steps : List Step}
    (hfront : '.' ∉ front) : SpellsPath (front ++ '.' :: rest) steps ↔ ∃ own others,
      SpellsSegment front own ∧ SpellsPath rest others ∧ own ++ others = steps := by
  constructor
  · intro hpath
    generalize htext : front ++ '.' :: rest = text at hpath
    cases hpath with
    | segment hsegment =>
      subst htext
      exact absurd (by simp) hsegment.dot_not_mem
    | dot hsegment hothers =>
      obtain ⟨rfl, rfl⟩ := eq_and_eq_of_append_cons hfront hsegment.dot_not_mem htext
      exact ⟨_, _, hsegment, hothers, rfl⟩
  · rintro ⟨own, others, hsegment, hothers, rfl⟩
    exact .dot hsegment hothers

/-- A path is spelled by its pieces between dots. -/
theorem spellsPath_iff_forall₂ {text : List Char} {steps : List Step} :
    SpellsPath text steps ↔
      ∃ found, List.Forall₂ SpellsSegment (text.splitOn '.') found ∧ found.flatten = steps := by
  induction text using splitting_induction '.' generalizing steps with
  | last text htext =>
    rw [List.splitOn_eq_singleton htext, spellsPath_iff_spellsSegment htext]
    simp only [List.forall₂_cons_left_iff, List.forall₂_nil_left_iff]
    constructor
    · intro hsegment
      exact ⟨[steps], ⟨steps, [], hsegment, rfl, rfl⟩, by simp⟩
    · rintro ⟨_, ⟨own, _, hsegment, rfl, rfl⟩, rfl⟩
      simpa using hsegment
  | more front rest hfront ih =>
    rw [List.splitOn_append_cons_self_of_not_mem hfront, spellsPath_append_cons_iff hfront]
    simp only [List.forall₂_cons_left_iff, ih]
    constructor
    · rintro ⟨own, _, hsegment, ⟨found, hfound, rfl⟩, rfl⟩
      exact ⟨own :: found, ⟨own, found, hsegment, hfound, rfl⟩, rfl⟩
    · rintro ⟨_, ⟨own, found, hsegment, hfound, rfl⟩, rfl⟩
      exact ⟨own, _, hsegment, ⟨found, hfound, rfl⟩, rfl⟩

/-- The reader of segments reads every one of several pieces that spell a segment. -/
theorem forall₂_spellsSegment_iff {pieces : List (List Char)} {found : List (List Step)} :
    List.Forall₂ SpellsSegment pieces found ↔
      ∃ segments, pieces.mapM Segment.read? = some segments ∧
        segments.map Segment.steps = found := by
  simp only [mapM_eq_some_iff_forall₂]
  induction pieces generalizing found with
  | nil => simp [eq_comm]
  | cons piece pieces ih =>
    simp only [List.forall₂_cons_left_iff, spellsSegment_iff, ih]
    constructor
    · rintro ⟨_, _, ⟨segment, hread, rfl⟩, ⟨segments, hsegments, rfl⟩, rfl⟩
      exact ⟨segment :: segments, ⟨segment, segments, hread, hsegments, rfl⟩, rfl⟩
    · rintro ⟨_, ⟨segment, segments, hread, hsegments, rfl⟩, rfl⟩
      exact ⟨_, _, ⟨segment, hread, rfl⟩, ⟨segments, hsegments, rfl⟩, rfl⟩

/-- The reader of paths accepts the texts of the grammar, and reads the steps that they spell. -/
theorem spellsPath_iff {text : List Char} {steps : List Step} :
    SpellsPath text steps ↔ ∃ path, Path.read? text = some path ∧ path.steps = steps := by
  simp only [spellsPath_iff_forall₂, forall₂_spellsSegment_iff, Path.read?, Option.map_eq_some_iff]
  constructor
  · rintro ⟨_, ⟨segments, hsegments, rfl⟩, rfl⟩
    exact ⟨⟨segments⟩, ⟨segments, hsegments, rfl⟩, List.flatMap_def⟩
  · rintro ⟨_, ⟨segments, hsegments, rfl⟩, rfl⟩
    exact ⟨_, ⟨segments, hsegments, rfl⟩, List.flatMap_def.symm⟩

/-- A field is parsed as the path that is read from its characters. -/
theorem Path.parse_eq_ok_iff {field : String} {path : Path} :
    Path.parse field = .ok path ↔ Path.read? field.toList = some path := by
  unfold Path.parse
  cases Path.read? field.toList <;> simp

/-- A field is accepted exactly if it spells a path. -/
theorem Path.exists_parse_iff {field : String} :
    (∃ path, Path.parse field = .ok path) ↔ ∃ steps, SpellsPath field.toList steps := by
  simp only [Path.parse_eq_ok_iff, spellsPath_iff]
  constructor
  · rintro ⟨path, hread⟩
    exact ⟨path.steps, path, hread, rfl⟩
  · rintro ⟨_, path, hread, _⟩
    exact ⟨path, hread⟩

/-- The empty text spells no path. -/
theorem SpellsPath.ne_nil {text : List Char} {steps : List Step} (hpath : SpellsPath text steps) :
    text ≠ [] := by
  rintro rfl
  obtain ⟨path, hread, _⟩ := spellsPath_iff.mp hpath
  cases hread

end RecordQuery
