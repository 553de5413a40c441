import RecordQuery.Proofs.PathGrammar

/-!
# Composition of paths

Two texts with a dot between them spell a path exactly if each of them does, and a position in
brackets may follow every path. The steps of the whole are those of its parts, one after the other.
So a composed path leads where its second part leads from the value to which the first part leads.
-/

namespace RecordQuery

/-! ## Texts and their steps -/

/-- Two texts with a dot between them spell the steps of the first one, and then those of the second
one. -/
theorem spellsPath_append_dot_iff {text other : List Char} {steps : List Step} :
    SpellsPath (text ++ '.' :: other) steps ↔ ∃ first second,
      SpellsPath text first ∧ SpellsPath other second ∧ first ++ second = steps := by
  induction text using splitting_induction '.' generalizing steps with
  | last text htext =>
    simp only [spellsPath_append_cons_iff htext, spellsPath_iff_spellsSegment htext]
  | more front rest hfront ih =>
    rw [List.append_assoc, List.cons_append]
    simp only [spellsPath_append_cons_iff hfront, ih]
    constructor
    · rintro ⟨own, _, hsegment, ⟨first, second, hrest, hother, rfl⟩, rfl⟩
      exact ⟨own ++ first, second, ⟨own, first, hsegment, hrest, rfl⟩, hother,
        List.append_assoc own first second⟩
    · rintro ⟨_, second, ⟨own, first, hsegment, hrest, rfl⟩, hother, rfl⟩
      exact ⟨own, first ++ second, hsegment, ⟨first, second, hrest, hother, rfl⟩,
        (List.append_assoc own first second).symm⟩

section Positions

variable {text tail : List Char} (htail : '[' ∉ tail)

include htail

/-- Behind positions in brackets stands one more position. -/
theorem spellsPositions_append_iff {brackets : List Char} {positions : List Nat}
    (hbrackets : Text.Stops (· != '[') brackets) :
    SpellsPositions (brackets ++ '[' :: tail) positions ↔ ∃ own position,
      SpellsPositions brackets own ∧ Segment.readPosition? tail = some position ∧
        own ++ [position] = positions := by
  cases brackets with
  | nil =>
    rw [List.nil_append, ← mapM_readPosition?_eq_some_iff, List.splitOn_eq_singleton htail]
    simp [spellsPositions_nil_iff, Option.bind_eq_some_iff]
  | cons c more =>
    obtain rfl : c = '[' := by simpa using hbrackets c rfl
    rw [List.cons_append, ← mapM_readPosition?_eq_some_iff, List.splitOn_append_cons_self,
      List.splitOn_eq_singleton htail, List.mapM_append]
    simp [← mapM_readPosition?_eq_some_iff, Option.bind_eq_some_iff]

/-- Behind a segment stands one more position. -/
theorem spellsSegment_append_opening_iff {steps : List Step} :
    SpellsSegment (text ++ '[' :: tail) steps ↔ ∃ own position,
      SpellsSegment text own ∧ Segment.readPosition? tail = some position ∧
        own ++ [.position position] = steps := by
  obtain ⟨name, brackets, rfl, hname, hbrackets⟩ := exists_append_of_opening text
  have hlonger : Text.Stops (· != '[') (brackets ++ '[' :: tail) := by
    cases brackets with
    | nil => exact Text.stops_cons rfl
    | cons c more => exact Text.stops_cons (hbrackets c rfl)
  rw [List.append_assoc]
  simp only [spellsSegment_append_iff hname hlonger, spellsSegment_append_iff hname hbrackets,
    spellsPositions_append_iff htail hbrackets]
  constructor
  · rintro ⟨hspells, _, ⟨own, position, hown, hposition, rfl⟩, rfl⟩
    exact ⟨_, position, ⟨hspells, own, hown, rfl⟩, hposition, by simp⟩
  · rintro ⟨_, position, ⟨hspells, own, hown, rfl⟩, hposition, rfl⟩
    exact ⟨hspells, _, ⟨own, position, hown, hposition, rfl⟩, by simp⟩

/-- Behind a path stands one more position, in its last segment. -/
theorem spellsPath_append_opening_iff (hdot : '.' ∉ tail) {steps : List Step} :
    SpellsPath (text ++ '[' :: tail) steps ↔ ∃ own position,
      SpellsPath text own ∧ Segment.readPosition? tail = some position ∧
        own ++ [.position position] = steps := by
  induction text using splitting_induction '.' generalizing steps with
  | last text htext =>
    have hwhole : '.' ∉ text ++ '[' :: tail := by simp [htext, hdot]
    simp only [spellsPath_iff_spellsSegment hwhole, spellsPath_iff_spellsSegment htext]
    exact spellsSegment_append_opening_iff htail
  | more front rest hfront ih =>
    rw [List.append_assoc, List.cons_append]
    simp only [spellsPath_append_cons_iff hfront, ih]
    constructor
    · rintro ⟨own, _, hsegment, ⟨others, position, hrest, hposition, rfl⟩, rfl⟩
      exact ⟨own ++ others, position, ⟨own, others, hsegment, hrest, rfl⟩, hposition,
        List.append_assoc own others _⟩
    · rintro ⟨_, position, ⟨own, others, hsegment, hrest, rfl⟩, hposition, rfl⟩
      exact ⟨own, _, hsegment, ⟨others, position, hrest, hposition, rfl⟩,
        (List.append_assoc own others _).symm⟩

end Positions

/-- The text of a number is a position in brackets if a word holds the number. -/
theorem Segment.readPosition?_toString_iff {n position : Nat} :
    readPosition? ((toString n).toList ++ [']']) = some position ↔
      n ≤ Number.maxWord ∧ position = n := by
  rw [readPosition?_eq_some_iff]
  constructor
  · rintro ⟨digits, htext, hnumber, hle⟩
    obtain rfl := List.append_cancel_right htext
    obtain rfl := spellsNumber_toString_iff.mp hnumber
    exact ⟨hle, rfl⟩
  · rintro ⟨hle, rfl⟩
    exact ⟨_, rfl, spellsNumber_toString_iff.mpr rfl, hle⟩

/-- A path goes on with a number in brackets, if a word holds it. -/
theorem spellsPath_append_position_iff {text : List Char} {n : Nat} {steps : List Step} :
    SpellsPath (text ++ '[' :: ((toString n).toList ++ [']'])) steps ↔
      n ≤ Number.maxWord ∧ ∃ own, SpellsPath text own ∧ own ++ [.position n] = steps := by
  have hmem : ∀ c, c.isDigit = false → c ≠ ']' → c ∉ (toString n).toList ++ [']'] := by
    intro c hdigit hclose hc
    rcases List.mem_append.mp hc with hc | hc
    · rw [isDigit_of_mem_toString hc] at hdigit
      cases hdigit
    · exact hclose (List.mem_singleton.mp hc)
  rw [spellsPath_append_opening_iff (hmem '[' rfl (by decide)) (hmem '.' rfl (by decide))]
  simp only [Segment.readPosition?_toString_iff]
  constructor
  · rintro ⟨own, _, hown, ⟨hle, rfl⟩, rfl⟩
    exact ⟨hle, own, hown, rfl⟩
  · rintro ⟨hle, own, hown, rfl⟩
    exact ⟨own, n, hown, ⟨hle, rfl⟩, rfl⟩

/-! ## Values -/

namespace Path

/-- A field has the value to which the steps lead that it spells. -/
theorem field?_eq_some_iff {field : String} {record value : Record} :
    record.field? field = some value ↔ ∃ steps,
      SpellsPath field.toList steps ∧ steps.foldlM Step.follow? record = some value := by
  simp only [Json.field?, resolve?, Option.bind_eq_some_iff, spellsPath_iff]
  constructor
  · rintro ⟨path, hread, hvalue⟩
    exact ⟨path.steps, ⟨path, hread, rfl⟩, hvalue⟩
  · rintro ⟨_, ⟨path, hread, rfl⟩, hvalue⟩
    exact ⟨path, hread, hvalue⟩

/-- A step to a position leads into an array that has an item there. -/
theorem follow?_position_eq_some_iff {value part : Record} {n : Nat} :
    Step.follow? value (.position n) = some part ↔
      ∃ items, value = .array items ∧ items[n]? = some part := by
  cases value <;> simp [Step.follow?, Json.item?]

/-- Steps behind others lead on from where the others lead. -/
theorem follow?_append_eq_some_iff {first second : List Step} {record value : Record} :
    (first ++ second).foldlM Step.follow? record = some value ↔ ∃ between,
      first.foldlM Step.follow? record = some between ∧
        second.foldlM Step.follow? between = some value := by
  rw [List.foldlM_append]
  exact Option.bind_eq_some_iff

section Composed

variable (field other : String) (n : Nat)

theorem toList_append_dot :
    (field ++ "." ++ other).toList = field.toList ++ '.' :: other.toList := by
  simp

theorem toList_append_position : (field ++ "[" ++ toString n ++ "]").toList =
    field.toList ++ '[' :: ((toString n).toList ++ [']']) := by
  simp

/-- Two texts with a dot between them are a path exactly if both are paths. -/
theorem exists_parse_append_dot_iff :
    (∃ path, parse (field ++ "." ++ other) = .ok path) ↔
      (∃ path, parse field = .ok path) ∧ ∃ path, parse other = .ok path := by
  simp only [exists_parse_iff, toList_append_dot, spellsPath_append_dot_iff]
  constructor
  · rintro ⟨_, first, second, hfirst, hsecond, rfl⟩
    exact ⟨⟨first, hfirst⟩, second, hsecond⟩
  · rintro ⟨⟨first, hfirst⟩, second, hsecond⟩
    exact ⟨_, first, second, hfirst, hsecond, rfl⟩

/-- The value of two paths with a dot between them is the value of the second one in the value of
the first one. -/
theorem field?_append_dot_eq_some_iff {record value : Record} :
    record.field? (field ++ "." ++ other) = some value ↔
      ∃ between, record.field? field = some between ∧ between.field? other = some value := by
  simp only [field?_eq_some_iff, toList_append_dot, spellsPath_append_dot_iff]
  constructor
  · rintro ⟨_, ⟨first, second, hfirst, hsecond, rfl⟩, hvalue⟩
    obtain ⟨between, hbetween, hvalue⟩ := follow?_append_eq_some_iff.mp hvalue
    exact ⟨between, ⟨first, hfirst, hbetween⟩, second, hsecond, hvalue⟩
  · rintro ⟨between, ⟨first, hfirst, hbetween⟩, second, hsecond, hvalue⟩
    exact ⟨_, ⟨first, second, hfirst, hsecond, rfl⟩,
      follow?_append_eq_some_iff.mpr ⟨between, hbetween, hvalue⟩⟩

/-- A text with a position behind it is a path exactly if the text is one and a word holds the
position. -/
theorem exists_parse_append_position_iff :
    (∃ path, parse (field ++ "[" ++ toString n ++ "]") = .ok path) ↔
      n ≤ Number.maxWord ∧ ∃ path, parse field = .ok path := by
  simp only [exists_parse_iff, toList_append_position, spellsPath_append_position_iff]
  constructor
  · rintro ⟨_, hle, own, hown, rfl⟩
    exact ⟨hle, own, hown⟩
  · rintro ⟨hle, own, hown⟩
    exact ⟨_, hle, own, hown, rfl⟩

/-- The value of a path with a position behind it is the item at this position in the array that is
the value of the path. -/
theorem field?_append_position_eq_some_iff {record value : Record} :
    record.field? (field ++ "[" ++ toString n ++ "]") = some value ↔ n ≤ Number.maxWord ∧
      ∃ items, record.field? field = some (.array items) ∧ items[n]? = some value := by
  have hstep : ∀ between : Record, [Step.position n].foldlM Step.follow? between = some value ↔
      ∃ items, between = .array items ∧ items[n]? = some value := fun between => by
    simpa using follow?_position_eq_some_iff
  simp only [field?_eq_some_iff, toList_append_position, spellsPath_append_position_iff]
  constructor
  · rintro ⟨_, ⟨hle, own, hown, rfl⟩, hvalue⟩
    obtain ⟨between, hbetween, hvalue⟩ := follow?_append_eq_some_iff.mp hvalue
    obtain ⟨items, rfl, hitem⟩ := (hstep between).mp hvalue
    exact ⟨hle, items, ⟨own, hown, hbetween⟩, hitem⟩
  · rintro ⟨hle, items, ⟨own, hown, hbetween⟩, hitem⟩
    exact ⟨_, ⟨hle, own, hown, rfl⟩, follow?_append_eq_some_iff.mpr
      ⟨.array items, hbetween, (hstep _).mpr ⟨items, rfl, hitem⟩⟩⟩

end Composed

/-- Two texts with a dot between them are a path exactly if both are paths, and its value is the
value of the second one in the value of the first one. A text with a position behind it is a path
exactly if the text is one and a word holds the position, and its value is the item at this position
in the array that is the value of the text. -/
theorem field?_append (field other : String) :
    ((∃ path, parse (field ++ "." ++ other) = .ok path) ↔
        (∃ path, parse field = .ok path) ∧ ∃ path, parse other = .ok path) ∧
      (∀ record value : Record, record.field? (field ++ "." ++ other) = some value ↔
        ∃ between, record.field? field = some between ∧ between.field? other = some value) ∧
      ∀ n : Nat,
        ((∃ path, parse (field ++ "[" ++ toString n ++ "]") = .ok path) ↔
          n ≤ Number.maxWord ∧ ∃ path, parse field = .ok path) ∧
        ∀ record value : Record,
          record.field? (field ++ "[" ++ toString n ++ "]") = some value ↔
            n ≤ Number.maxWord ∧
              ∃ items, record.field? field = some (.array items) ∧ items[n]? = some value := by
  refine ⟨exists_parse_append_dot_iff field other, fun _ _ => ?_, fun n => ⟨?_, fun _ _ => ?_⟩⟩
  · exact field?_append_dot_eq_some_iff field other
  · exact exists_parse_append_position_iff field n
  · exact field?_append_position_eq_some_iff field n

/-- Under a name that is repeated below itself, an item of an item is found, and no item in what is
no array. -/
example :
    let inner : Record := .array [.bool true, .array [.null, .string "x"]]
    let record : Record := .object [("a", .object [("a", inner)])]
    record.field? ("a" ++ "." ++ "a" ++ "[" ++ toString 1 ++ "]" ++ "[" ++ toString 1 ++ "]") =
        some (.string "x") ∧
      record.field? ("a" ++ "[" ++ toString 0 ++ "]") = none := ⟨rfl, rfl⟩

end Path

end RecordQuery
