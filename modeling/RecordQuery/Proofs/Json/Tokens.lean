import Mathlib.Data.List.Basic
import RecordQuery.Proofs.Json.Literals
import RecordQuery.Proofs.Json.Numerals

/-!
# Scanning written texts

The text of a value is scanned into the tokens of the value, whatever follows it, unless this goes
on with a number.
-/

namespace RecordQuery

open Text

namespace Json

/-- Induction on values: a property holds of every value if it holds of those that are no
containers, and passes from the items of an array and from the values of the members of an object to
these. -/
@[elab_as_elim] theorem induction {σ : Type} {P : Json σ → Prop} (null : P .null)
    (bool : ∀ value, P (.bool value)) (number : ∀ value, P (.number value))
    (string : ∀ value, P (.string value))
    (array : ∀ items, (∀ item ∈ items, P item) → P (.array items))
    (object : ∀ members : List (σ × Json σ), (∀ member ∈ members, P member.2) → P (.object members))
    (value : Json σ) : P value :=
  @Json.rec σ P (fun items => ∀ item ∈ items, P item)
    (fun members => ∀ member ∈ members, P member.2) (fun member => P member.2)
    null bool number string array object
    (fun _ hitem => absurd hitem List.not_mem_nil)
    (fun _ _ hhead htail => List.forall_mem_cons.mpr ⟨hhead, htail⟩)
    (fun _ hmember => absurd hmember List.not_mem_nil)
    (fun _ _ hhead htail => List.forall_mem_cons.mpr ⟨hhead, htail⟩)
    (fun _ _ hvalue => hvalue)
    value

mutual

/-- The tokens of a value. -/
def tokens : Document → List Token
  | null => [.null]
  | bool value => [.bool value]
  | number value => [.number value]
  | string value => [.string value]
  | array items => .openArray :: ([.comma].intercalate (tokensOfItems items) ++ [.closeArray])
  | object members =>
    .openObject :: ([.comma].intercalate (tokensOfMembers members) ++ [.closeObject])

/-- The tokens of each item of an array. -/
def tokensOfItems : List Document → List (List Token)
  | [] => []
  | item :: items => tokens item :: tokensOfItems items

/-- The tokens of each member of an object. -/
def tokensOfMembers : List (Option String × Document) → List (List Token)
  | [] => []
  | (name, value) :: members =>
    (.string name :: .colon :: tokens value) :: tokensOfMembers members

end

/-- The tokens of a member of an object. -/
def memberTokens (member : Option String × Document) : List Token :=
  .string member.1 :: .colon :: member.2.tokens

/-- The text of a member of an object. -/
def writeMember (member : String × Record) : String :=
  StringLiteral.write member.1 ++ ":" ++ member.2.write

@[simp] theorem tokensOfItems_eq_map (items : List Document) :
    tokensOfItems items = items.map tokens := by
  induction items with
  | nil => rfl
  | cons item items ih => rw [tokensOfItems, ih, List.map_cons]

@[simp] theorem tokensOfMembers_eq_map (members : List (Option String × Document)) :
    tokensOfMembers members = members.map memberTokens := by
  induction members with
  | nil => rfl
  | cons member members ih => rw [tokensOfMembers, ih, List.map_cons]; rfl

@[simp] theorem writeItems_eq_map (items : List Record) : writeItems items = items.map write := by
  induction items with
  | nil => rfl
  | cons item items ih => rw [writeItems, ih, List.map_cons]

@[simp] theorem writeMembers_eq_map (members : List (String × Record)) :
    writeMembers members = members.map writeMember := by
  induction members with
  | nil => rfl
  | cons member members ih => rw [writeMembers, ih, List.map_cons]; rfl

end Json

namespace Document

mutual

/-- A value as a document. -/
def ofRecord : Record → Document
  | .null => .null
  | .bool value => .bool value
  | .number value => .number value
  | .string value => .string (some value)
  | .array items => .array (ofItems items)
  | .object members => .object (ofMembers members)

/-- The items of an array as documents. -/
def ofItems : List Record → List Document
  | [] => []
  | item :: items => ofRecord item :: ofItems items

/-- The members of an object with documents as values. -/
def ofMembers : List (String × Record) → List (Option String × Document)
  | [] => []
  | (name, value) :: members => (some name, ofRecord value) :: ofMembers members

end

@[simp] theorem ofItems_eq_map (items : List Record) : ofItems items = items.map ofRecord := by
  induction items with
  | nil => rfl
  | cons item items ih => rw [ofItems, ih, List.map_cons]

@[simp] theorem ofMembers_eq_map (members : List (String × Record)) :
    ofMembers members = members.map fun member => (some member.1, ofRecord member.2) := by
  induction members with
  | nil => rfl
  | cons member members ih => rw [ofMembers, ih, List.map_cons]

end Document

namespace Token

open Document

variable {rest : List Char} {token : Token}

/-- Behind its gap, a text is scanned token by token. -/
theorem scan_eq (text : List Char) : scan text =
    match text.dropWhile isGap with
    | [] => some []
    | c :: tail => (read (c :: tail)).bind fun (token, rest) => (scan rest).map (token :: ·) := by
  rw [scan]
  split
  · next hgap => rw [hgap]
  · next c tail hgap =>
    rw [hgap]
    dsimp only
    split
    · next hnone => rw [hnone, Option.bind_none]
    · next hsome => rw [hsome, Option.bind_some]

/-- The empty text has no tokens. -/
theorem scan_nil : scan [] = some [] := by
  rw [scan_eq]
  rfl

/-- A gap is scanned over, and a token is scanned before what follows it. -/
theorem scan_cons (c : Char) (text : List Char) : scan (c :: text) =
    if isGap c then scan text
    else (read (c :: text)).bind fun (token, rest) => (scan rest).map (token :: ·) := by
  rw [scan_eq, List.dropWhile_cons]
  by_cases hgap : isGap c = true
  · rw [if_pos hgap, if_pos hgap, ← scan_eq]
  · rw [if_neg hgap, if_neg hgap]

/-- A token at the head of a text is scanned first, if the text does not begin with a gap. -/
theorem scan_of_read {c : Char} {text : List Char} (hgap : isGap c = false)
    (hread : read (c :: text) = some (token, rest)) :
    scan (c :: text) = (scan rest).map (token :: ·) := by
  rw [scan_cons, hgap, if_neg Bool.false_ne_true, hread, Option.bind_some]

/-- A number is read where a digit or a minus stands. -/
theorem read_of_isDigit {c : Char} (hc : c.isDigit = true ∨ c = '-') (text : List Char) :
    read (c :: text) = (readNumber (c :: text)).map fun (value, rest) => (number value, rest) := by
  unfold read
  split
  case h_11 => rfl
  all_goals
    next heq =>
      cases (List.cons.inj heq).1
      rcases hc with hc | hc <;> exact absurd hc (by decide)

/-- The text of a number begins with a digit or a minus. -/
theorem exists_write_eq_cons (value : Number) :
    ∃ c tail, value.write.toList = c :: tail ∧ (c.isDigit = true ∨ c = '-') := by
  match value with
  | .integer (.ofNat n) =>
    obtain ⟨c, digits, hdigits, hc⟩ := exists_toList_toString_eq_cons n
    exact ⟨c, digits, hdigits, .inl hc⟩
  | .integer (.negSucc n) => exact ⟨'-', _, toList_toString_negSucc n, .inr rfl⟩
  | .decimal ⟨true, mantissa, scale⟩ =>
    refine ⟨'-', (toString mantissa ++ "e" ++ toString scale).toList, ?_, .inr rfl⟩
    simp [Number.write]
  | .decimal ⟨false, mantissa, scale⟩ =>
    obtain ⟨c, digits, hdigits, hc⟩ := exists_toList_toString_eq_cons mantissa
    refine ⟨c, digits ++ ("e" ++ toString scale).toList, ?_, .inl hc⟩
    rw [← List.cons_append, ← hdigits]
    simp [Number.write]

/-- No number begins with a gap. -/
theorem isGap_of_isDigit {c : Char} (hc : c.isDigit = true ∨ c = '-') : isGap c = false := by
  by_contra hgap
  simp only [isGap, Bool.not_eq_false, Bool.or_eq_true, beq_iff_eq] at hgap
  rcases hgap with ((rfl | rfl) | rfl) | rfl <;> exact absurd hc (by decide)

/-- A number is scanned from its text. -/
theorem scan_number (value : Number) (hrest : Stops continuesNumber rest) :
    scan (value.write.toList ++ rest) = (scan rest).map (.number value :: ·) := by
  obtain ⟨c, tail, htext, hc⟩ := exists_write_eq_cons value
  have hread := readNumber_write value hrest
  rw [htext, List.cons_append] at hread ⊢
  refine scan_of_read (isGap_of_isDigit hc) ?_
  rw [read_of_isDigit hc, hread]
  rfl

/-- A string is scanned from its literal. -/
theorem scan_string (text : String) (rest : List Char) :
    scan ((StringLiteral.write text).toList ++ rest) =
      (scan rest).map (.string (some text) :: ·) := by
  have hwrite : (StringLiteral.write text).toList ++ rest =
      '"' :: (text.toList.flatMap StringLiteral.escapeChar ++ '"' :: rest) := by
    simp [StringLiteral.write]
  rw [hwrite]
  refine scan_of_read rfl ?_
  rw [read, StringLiteral.readPoints_flatMap_escapeChar]
  simp [StringLiteral.joinSurrogates_map_toNat]

/-- Pieces that are each scanned from a text are scanned from their texts with commas between
them. -/
theorem scan_intercalate {α : Type} {text : α → List Char} {tokens : α → List Token}
    {items : List α} (hitems : ∀ item ∈ items, ∀ rest, Stops continuesNumber rest →
      scan (text item ++ rest) = (scan rest).map (tokens item ++ ·))
    (hrest : Stops continuesNumber rest) :
    scan ([','].intercalate (items.map text) ++ rest) =
      (scan rest).map ([.comma].intercalate (items.map tokens) ++ ·) := by
  induction items with
  | nil => simp
  | cons item items ih =>
    obtain ⟨hitem, hothers⟩ := List.forall_mem_cons.mp hitems
    cases items with
    | nil => simpa using hitem rest hrest
    | cons next items =>
      have hcomma : ∀ tail, scan (',' :: tail) = (scan tail).map (.comma :: ·) := fun tail =>
        scan_of_read rfl rfl
      have hscan := hitem (',' :: ([','].intercalate ((next :: items).map text) ++ rest))
        (stops_cons rfl)
      rw [hcomma, ih hothers, Option.map_map, Option.map_map] at hscan
      rw [List.map_cons, List.map_cons, List.map_cons, List.map_cons,
        List.intercalate_cons_cons, List.intercalate_cons_cons, List.append_assoc,
        List.append_assoc]
      simpa [Function.comp_def] using hscan

/-- A value is scanned from its text. -/
theorem scan_write (value : Record) (hrest : Stops continuesNumber rest) :
    scan (value.write.toList ++ rest) = (scan rest).map ((ofRecord value).tokens ++ ·) := by
  induction value using Json.induction generalizing rest with
  | null => exact scan_of_read rfl rfl
  | bool value => cases value <;> exact scan_of_read rfl rfl
  | number value => exact scan_number value hrest
  | string value => exact scan_string value rest
  | array items ih =>
    have htext : (Json.array items).write.toList ++ rest =
        '[' :: ([','].intercalate (items.map fun item => item.write.toList) ++ ']' :: rest) := by
      simp [Json.write, String.toList_intercalate, Function.comp_def]
    have hclose : scan (']' :: rest) = (scan rest).map (.closeArray :: ·) := scan_of_read rfl rfl
    rw [htext, scan_of_read rfl rfl,
      scan_intercalate (fun item hitem rest hrest => ih item hitem hrest) (stops_cons rfl), hclose]
    simp [ofRecord, Json.tokens, Function.comp_def]
  | object members ih =>
    have htext : (Json.object members).write.toList ++ rest =
        '\x7b' :: ([','].intercalate (members.map fun member => (Json.writeMember member).toList) ++
          '\x7d' :: rest) := by
      simp [Json.write, String.toList_intercalate, Function.comp_def]
    have hclose : scan ('\x7d' :: rest) = (scan rest).map (.closeObject :: ·) :=
      scan_of_read rfl rfl
    have hmember : ∀ member ∈ members, ∀ rest, Stops continuesNumber rest →
        scan ((Json.writeMember member).toList ++ rest) =
          (scan rest).map (Json.memberTokens (some member.1, ofRecord member.2) ++ ·) := by
      intro member hmember rest hrest
      have hcolon : ∀ tail, scan (':' :: tail) = (scan tail).map (.colon :: ·) := fun tail =>
        scan_of_read rfl rfl
      have hpair : (Json.writeMember member).toList ++ rest =
          (StringLiteral.write member.1).toList ++ ':' :: (member.2.write.toList ++ rest) := by
        simp [Json.writeMember]
      rw [hpair, scan_string, hcolon, ih member hmember hrest]
      simp [Json.memberTokens, Function.comp_def]
    rw [htext, scan_of_read rfl rfl, scan_intercalate hmember (stops_cons rfl), hclose]
    simp [ofRecord, Json.tokens, Function.comp_def]

end Token

end RecordQuery
