import Mathlib.Data.List.Infix
import RecordQuery.Predicate.Matching
import RecordQuery.Proofs.Parameters

/-!
# Verdicts on a field

What a field holds either compares with a parameter, or is null, or stands apart from it. This alone
decides how the verdicts of the six comparisons go together: of less, equal and greater exactly one
holds, or only being unequal does, or nothing holds. The tests for null and the methods of texts go
together as their names say.
-/

namespace RecordQuery

/-- How what a field holds stands to a parameter. -/
inductive Standing where
  /-- It is before the parameter, level with it, or behind it. -/
  | ordered
  /-- It is null. -/
  | null
  /-- It does not compare with the parameter, or there is nothing. -/
  | apart
  deriving Repr, DecidableEq

/-- What a field holds, if anything, stands to a parameter in some way. Texts compare with every
parameter, truth values with one that spells a truth value, and numbers with one that spells a
number other than NaN, where blanks around the parameter do not count. -/
inductive Stands (parameter : String) : Option Record → Standing → Prop
  | string (text : String) : Stands parameter (some (.string text)) .ordered
  | bool (truth : Bool) {spelled : Bool} :
    Text.trim parameter.toList = (toString spelled).toList →
    Stands parameter (some (.bool truth)) .ordered
  | number (x : Number) {numeral : Numeral} :
    Numeral.read? (Text.trim parameter.toList) = some numeral → numeral ≠ .nan →
    Stands parameter (some (.number x)) .ordered
  | null : Stands parameter (some .null) .null
  | missing : Stands parameter none .apart
  | array (items : List Record) : Stands parameter (some (.array items)) .apart
  | object (members : List (String × Record)) : Stands parameter (some (.object members)) .apart
  | noBool (truth : Bool) :
    (∀ spelled : Bool, Text.trim parameter.toList ≠ (toString spelled).toList) →
    Stands parameter (some (.bool truth)) .apart
  | noNumber (x : Number) :
    Numeral.read? (Text.trim parameter.toList) = none →
    Stands parameter (some (.number x)) .apart
  | nan (x : Number) :
    Numeral.read? (Text.trim parameter.toList) = some .nan →
    Stands parameter (some (.number x)) .apart

/-- The verdicts of the six comparisons in a standing. -/
def Standing.Shows (verdict : Operator → Bool) : Standing → Prop
  | ordered =>
    (∃! op, op ∈ [Operator.less, .equal, .greater] ∧ verdict op = true) ∧
      verdict .atMost = (verdict .less || verdict .equal) ∧
      verdict .atLeast = (verdict .greater || verdict .equal) ∧
      verdict .unequal = !verdict .equal
  | null => ∀ op : Operator, op.kind = .comparison → (verdict op = true ↔ op = .unequal)
  | apart => ∀ op : Operator, op.kind = .comparison → verdict op = false

/-! ## Comparisons -/

section Comparisons

variable {parameter : String} {value : Option Record} {standing other : Standing}
  {verdict : Operator → Bool}

/-- The order of a value and a parameter decides about the six comparisons. -/
theorem Standing.shows_accepts (ordering : Ordering) :
    Standing.ordered.Shows fun op => op.accepts ordering := by
  have hone : ∃ decider ∈ [Operator.less, .equal, .greater],
      ∀ op ∈ [Operator.less, .equal, .greater], op.accepts ordering = true ↔ op = decider := by
    cases ordering with
    | lt => exact ⟨.less, by decide⟩
    | eq => exact ⟨.equal, by decide⟩
    | gt => exact ⟨.greater, by decide⟩
  obtain ⟨decider, hmem, hdecider⟩ := hone
  refine ⟨⟨decider, ⟨hmem, (hdecider decider hmem).mpr rfl⟩, ?_⟩, ?_⟩
  · rintro op ⟨hop, haccepts⟩
    exact (hdecider op hop).mp haccepts
  · cases ordering <;> decide

/-- In an ordered field one of the comparisons holds that hold neither of null nor of a field that
stands apart. -/
theorem Standing.exists_of_shows_ordered (hshows : Standing.ordered.Shows verdict) :
    ∃ op : Operator, op.kind = .comparison ∧ op ≠ .unequal ∧ verdict op = true := by
  obtain ⟨⟨op, ⟨hop, hverdict⟩, _⟩, _⟩ := hshows
  have hcomparison : ∀ op ∈ [Operator.less, .equal, .greater],
      op.kind = .comparison ∧ op ≠ .unequal := by decide
  obtain ⟨hkind, hne⟩ := hcomparison op hop
  exact ⟨op, hkind, hne, hverdict⟩

/-- The verdicts of the six comparisons tell the standing. -/
theorem Standing.eq_of_shows (hstanding : standing.Shows verdict) (hother : other.Shows verdict) :
    standing = other := by
  have hnull : Standing.null.Shows verdict → ¬ Standing.apart.Shows verdict := by
    intro hnull hapart
    have hunequal := (hnull .unequal rfl).mpr rfl
    rw [hapart .unequal rfl] at hunequal
    cases hunequal
  have hordered : Standing.ordered.Shows verdict →
      ¬ (Standing.null.Shows verdict ∨ Standing.apart.Shows verdict) := by
    intro hordered hnot
    obtain ⟨op, hkind, hne, hverdict⟩ := Standing.exists_of_shows_ordered hordered
    rcases hnot with hnull | hapart
    · exact hne ((hnull op hkind).mp hverdict)
    · rw [hapart op hkind] at hverdict
      cases hverdict
  cases standing <;> cases other <;> first | rfl | exfalso
  · exact hordered hstanding (.inl hother)
  · exact hordered hstanding (.inr hother)
  · exact hordered hother (.inl hstanding)
  · exact hnull hstanding hother
  · exact hordered hother (.inr hstanding)
  · exact hnull hother hstanding

/-- What a field holds stands to every parameter in some way. -/
theorem exists_stands (parameter : String) (value : Option Record) :
    ∃ standing, Stands parameter value standing := by
  match value with
  | none => exact ⟨.apart, .missing⟩
  | some .null => exact ⟨.null, .null⟩
  | some (.string text) => exact ⟨.ordered, .string text⟩
  | some (.array items) => exact ⟨.apart, .array items⟩
  | some (.object members) => exact ⟨.apart, .object members⟩
  | some (.bool truth) =>
    by_cases hspelled : ∃ spelled : Bool, Text.trim parameter.toList = (toString spelled).toList
    · obtain ⟨spelled, hspelled⟩ := hspelled
      exact ⟨.ordered, .bool truth hspelled⟩
    · exact ⟨.apart, .noBool truth fun spelled heq => hspelled ⟨spelled, heq⟩⟩
  | some (.number x) =>
    cases hnumeral : Numeral.read? (Text.trim parameter.toList) with
    | none => exact ⟨.apart, .noNumber x hnumeral⟩
    | some numeral =>
      by_cases hnan : numeral = .nan
      · exact ⟨.apart, .nan x (hnan ▸ hnumeral)⟩
      · exact ⟨.ordered, .number x hnumeral hnan⟩

/-- What is ordered with a parameter has an order with it. -/
theorem Stands.exists_compareParameter (hstands : Stands parameter value .ordered) :
    ∃ actual ordering, value = some actual ∧ actual.isNull = false ∧
      Comparison.compareParameter actual parameter = some ordering := by
  cases hstands with
  | string text => exact ⟨.string text, _, rfl, rfl, rfl⟩
  | @bool truth spelled hspelled =>
    have hread := Comparison.readBool?_eq_some_iff.mpr hspelled
    refine ⟨.bool truth, compare truth spelled, rfl, rfl, ?_⟩
    rw [Comparison.compareParameter, hread, Option.map_some]
  | @number x numeral hnumeral hnan =>
    cases hread : Comparison.readNumber? parameter with
    | none =>
      rcases Comparison.readNumber?_eq_none_iff.mp hread with hnone | hsome
      · exact absurd (hnumeral.symm.trans hnone) (by simp)
      · exact absurd (Option.some.inj (hnumeral.symm.trans hsome)) hnan
    | some y =>
      refine ⟨.number x, compare x.nearest y, rfl, rfl, ?_⟩
      rw [Comparison.compareParameter, hread, Option.map_some]

/-- What stands apart from a parameter has no order with it, although it is not null. -/
theorem Stands.compareParameter_eq_none (hstands : Stands parameter value .apart) :
    ∀ actual, value = some actual → actual.isNull = false ∧
      Comparison.compareParameter actual parameter = none := by
  rintro actual rfl
  have hnumber : ∀ x, Comparison.readNumber? parameter = none →
      Comparison.compareParameter (.number x) parameter = none := by
    intro x hread
    rw [Comparison.compareParameter, hread, Option.map_none]
  cases hstands with
  | array items => exact ⟨rfl, rfl⟩
  | object members => exact ⟨rfl, rfl⟩
  | noBool truth hspelled =>
    have hread : Comparison.readBool? parameter = none := by
      rw [Option.eq_none_iff_forall_ne_some]
      exact fun spelled heq => hspelled spelled (Comparison.readBool?_eq_some_iff.mp heq)
    refine ⟨rfl, ?_⟩
    rw [Comparison.compareParameter, hread, Option.map_none]
  | noNumber x hnumeral =>
    exact ⟨rfl, hnumber x (Comparison.readNumber?_eq_none_iff.mpr (.inl hnumeral))⟩
  | nan x hnumeral =>
    exact ⟨rfl, hnumber x (Comparison.readNumber?_eq_none_iff.mpr (.inr hnumeral))⟩

/-- What a field holds and a parameter decide about the six comparisons as they stand to each
other. -/
theorem Stands.shows (hstands : Stands parameter value standing) :
    standing.Shows fun op => value.any fun actual => op.compares actual parameter := by
  cases standing with
  | ordered =>
    obtain ⟨actual, ordering, rfl, hnull, hcompare⟩ := hstands.exists_compareParameter
    have hverdict : ∀ op : Operator, op.compares actual parameter = op.accepts ordering := by
      intro op
      rw [Operator.compares, hnull, if_neg Bool.false_ne_true, hcompare]
    simpa only [Option.any_some, hverdict] using Standing.shows_accepts ordering
  | null =>
    cases hstands
    intro op _
    simp [Operator.compares, Json.isNull]
  | apart =>
    intro op _
    cases value with
    | none => rfl
    | some actual =>
      obtain ⟨hnull, hcompare⟩ := hstands.compareParameter_eq_none actual rfl
      show op.compares actual parameter = false
      rw [Operator.compares, hnull, if_neg Bool.false_ne_true, hcompare]

end Comparisons

/-! ## Methods -/

/-- A pattern that is searched in a text is found if it is a part of the text. -/
theorem Text.occursIn_iff {pattern text : List Char} :
    Text.occursIn pattern text = true ↔ pattern <:+: text := by
  induction text with
  | nil => simp [Text.occursIn]
  | cons c rest ih =>
    rw [Text.occursIn, Bool.or_eq_true, ih, List.isPrefixOf_iff_prefix, List.infix_cons_iff]

section Methods

variable {text parameter : String}

theorem Operator.hits_contains_iff :
    Operator.contains.hits text parameter = true ↔ parameter.toList <:+: text.toList := by
  rw [← Text.occursIn_iff]
  simp [Operator.hits, Operator.isNegated]

theorem Operator.hits_lacks :
    Operator.lacks.hits text parameter = !Operator.contains.hits text parameter := by
  simp [Operator.hits, Operator.isNegated]

/-- What a text starts or ends with is a part of it. -/
theorem Operator.hits_contains_of_hits
    (hhits : Operator.startsWith.hits text parameter = true ∨
      Operator.endsWith.hits text parameter = true) :
    Operator.contains.hits text parameter = true := by
  rw [Operator.hits_contains_iff]
  rcases hhits with hstarts | hends
  · have hprefix : parameter.toList <+: text.toList := by
      simpa [Operator.hits, Operator.isNegated] using hstarts
    exact hprefix.isInfix
  · have hsuffix : parameter.toList <:+ text.toList := by
      simpa [Operator.hits, Operator.isNegated] using hends
    exact hsuffix.isInfix

end Methods

/-! ## Conditions -/

section Conditions

variable {record : Record} {field parameter : String} {parameters : List String} {slot : Nat}

/-- A comparison holds if the field holds a value of which the operator holds. -/
theorem Condition.holds_compare (hslot : parameters[slot]? = some parameter) (op : Operator) :
    (Condition.compare field op slot).holds record parameters =
      (record.field? field).any fun actual => op.compares actual parameter := by
  rw [Condition.holds, hslot]
  cases record.field? field <;> rfl

/-- A method holds if the field holds a text of which it does. -/
theorem Condition.holds_method_iff (hslot : parameters[slot]? = some parameter) (op : Operator) :
    (Condition.method field op slot).holds record parameters = true ↔
      ∃ text, record.field? field = some (.string text) ∧ op.hits text parameter = true := by
  rw [Condition.holds, hslot]
  split
  · next text _ hvalue hparameter =>
    obtain rfl := Option.some.inj hparameter
    simp [hvalue]
  · next hnot =>
    refine iff_of_false Bool.false_ne_true ?_
    rintro ⟨text, hvalue, _⟩
    exact hnot text parameter hvalue rfl

/-- A field is null or missing if its text is no path, or its path leads nowhere or to null. -/
theorem Condition.holds_nullTest_iff :
    (Condition.nullTest field false).holds record parameters = true ↔
      Path.parse field = .error (.field field) ∨ ∃ path, Path.parse field = .ok path ∧
        (path.resolve? record = none ∨ path.resolve? record = some .null) := by
  rw [Condition.holds, Json.field?, Path.parse]
  cases Path.read? field.toList with
  | none => simp
  | some path =>
    rw [Option.bind_some]
    cases hvalue : path.resolve? record with
    | none => simp [hvalue]
    | some value => cases value <;> simp [hvalue, Json.isNull]

/-- The operators agree with each other on every record, whatever a field is called and a parameter
spells. The field stands to the parameter in one way, and the six comparisons show the verdicts of
this standing and of no other one. One of the two tests for null holds, and the positive one does so
if the field is no path or leads nowhere or to null. Of a text it holds either that it contains the
parameter or that it lacks it, and of no other value either; what starts or ends with the parameter
contains it. -/
theorem operators_cohere (record : Record) (field : String)
    (hslot : parameters[slot]? = some parameter) :
    (∃ standing, Stands parameter (record.field? field) standing ∧
      standing.Shows (fun op => (Condition.compare field op slot).holds record parameters) ∧
      ∀ other, Stands parameter (record.field? field) other ∨
        other.Shows (fun op => (Condition.compare field op slot).holds record parameters) →
        other = standing) ∧
    ((Condition.nullTest field true).holds record parameters =
        !(Condition.nullTest field false).holds record parameters ∧
      ((Condition.nullTest field false).holds record parameters = true ↔
        Path.parse field = .error (.field field) ∨ ∃ path, Path.parse field = .ok path ∧
          (path.resolve? record = none ∨ path.resolve? record = some .null))) ∧
    (∀ text, record.field? field = some (.string text) →
      (Condition.method field .lacks slot).holds record parameters =
        !(Condition.method field .contains slot).holds record parameters) ∧
    ((∀ text, record.field? field ≠ some (.string text)) →
      (Condition.method field .contains slot).holds record parameters = false ∧
      (Condition.method field .lacks slot).holds record parameters = false) ∧
    ((Condition.method field .startsWith slot).holds record parameters = true ∨
        (Condition.method field .endsWith slot).holds record parameters = true →
      (Condition.method field .contains slot).holds record parameters = true) := by
  simp only [Condition.holds_compare hslot]
  refine ⟨?_, ⟨?_, Condition.holds_nullTest_iff⟩, ?_, ?_, ?_⟩
  · obtain ⟨standing, hstands⟩ := exists_stands parameter (record.field? field)
    refine ⟨standing, hstands, hstands.shows, ?_⟩
    rintro other (hother | hother)
    · exact Standing.eq_of_shows hother.shows hstands.shows
    · exact Standing.eq_of_shows hother hstands.shows
  · simp [Condition.holds]
  · intro text hvalue
    rw [Bool.eq_iff_iff, Bool.not_eq_true', ← Bool.not_eq_true, Condition.holds_method_iff hslot,
      Condition.holds_method_iff hslot]
    simp [hvalue, Operator.hits_lacks]
  · intro hvalue
    have hnone : ∀ op : Operator,
        (Condition.method field op slot).holds record parameters = false := by
      intro op
      rw [← Bool.not_eq_true, Condition.holds_method_iff hslot]
      rintro ⟨text, htext, _⟩
      exact hvalue text htext
    exact ⟨hnone .contains, hnone .lacks⟩
  · simp only [Condition.holds_method_iff hslot]
    rintro (⟨text, hvalue, hhits⟩ | ⟨text, hvalue, hhits⟩)
    · exact ⟨text, hvalue, Operator.hits_contains_of_hits (.inl hhits)⟩
    · exact ⟨text, hvalue, Operator.hits_contains_of_hits (.inr hhits)⟩

/-- An integer that no double holds is ordered with a parameter between blanks, so one of less,
equal and greater holds. -/
theorem operators_cohere_blanks :
    let record : Record := .object [("n", .number (.integer 9007199254740993))]
    let parameters := ["x", " 9007199254740992 "]
    parameters[1]? = some " 9007199254740992 " ∧
      (∃! op, op ∈ [Operator.less, .equal, .greater] ∧
        (Condition.compare "n" op 1).holds record parameters = true) ∧
      (Condition.nullTest "n" true).holds record parameters = true ∧
      (Condition.method "n" .lacks 1).holds record parameters = false := by
  intro record parameters
  have hslot : parameters[1]? = some " 9007199254740992 " := rfl
  have hfield : record.field? "n" = some (.number (.integer 9007199254740993)) := rfl
  obtain ⟨⟨standing, hstands, hshows, honly⟩, ⟨hnot, _⟩, _, hmethods, _⟩ :=
    operators_cohere record "n" hslot
  have hordered : Stands " 9007199254740992 " (record.field? "n") .ordered := by
    rw [hfield]
    have hread : Numeral.read? (Text.trim " 9007199254740992 ".toList) =
        some (.finite ⟨false, 9007199254740992, 0⟩) := by decide +kernel
    exact .number _ hread (by decide)
  obtain rfl := honly .ordered (.inl hordered)
  refine ⟨hslot, hshows.1, ?_, (hmethods ?_).2⟩
  · rw [hnot]
    decide +kernel
  · intro text
    rw [hfield]
    simp

end Conditions

end RecordQuery
