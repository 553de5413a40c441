import RecordQuery.Limits.Text
import RecordQuery.Proofs.Fields

/-!
# Limits and their texts

A text of limits gives some of them, as members of an object or as the first items of an array. It
stands for these, completed by the usual limits. Limits that have been read are positive, and they
are read back from their own text. Any others are rejected for the first one that is zero.
-/

namespace RecordQuery

/-- A natural number as a document. -/
def Document.ofNatural (n : Nat) : Document :=
  .number (.integer n)

namespace Form

variable {usual : Nat} {given : Option Document}

/-- A natural number is read from what is given, or else from the usual one. -/
theorem natural_eq_some_iff {n : Nat} (husual : usual ≤ Number.maxWord) :
    natural usual given = some n ↔
      n ≤ Number.maxWord ∧ given.getD (.ofNatural usual) = .ofNatural n := by
  have hnumber : ∀ m : Nat, Document.ofNatural m = .ofNatural n ↔ m = n := by
    intro m
    simp only [Document.ofNatural, Json.number.injEq, Number.integer.injEq, Int.natCast_inj]
  unfold natural
  split
  · rw [Option.some.injEq, Option.getD_none, hnumber]
    constructor
    · rintro rfl
      exact ⟨husual, rfl⟩
    · exact And.right
  · next value =>
    have hgiven : (some (.number (.integer (.ofNat value)))).getD (.ofNatural usual) =
      Document.ofNatural value := rfl
    rw [hgiven, hnumber]
    split
    · next hle =>
      rw [Option.some.injEq]
      constructor
      · rintro rfl
        exact ⟨hle, rfl⟩
      · exact And.right
    · next hgt =>
      refine iff_of_false (by simp) ?_
      rintro ⟨hle, rfl⟩
      exact hgt hle
  · next document hnone hnatural =>
    refine iff_of_false (by simp) ?_
    rintro ⟨_, hgiven⟩
    cases given with
    | none => exact hnone rfl
    | some own => exact hnatural n (congrArg some hgiven)

/-- A truth value is read from what is given, or else from the usual one. -/
theorem flag_eq_some_iff {missing value : Bool} :
    flag missing given = some value ↔ given.getD (.bool missing) = .bool value := by
  unfold flag
  split
  · simp
  · simp
  · next hnone hbool =>
    refine iff_of_false (by simp) fun hgiven => ?_
    cases given with
    | none => exact hnone rfl
    | some own => exact hbool value (congrArg some hgiven)

end Form

namespace Limits

open Document

variable {limits : Limits} {document : Document}

/-! ## The first limit that is zero -/

/-- Limits of which none is zero. -/
structure Positive (limits : Limits) : Prop where
  depth_pos : 0 < limits.maxDepth
  nodes_pos : 0 < limits.maxNodes
  keys_pos : 0 < limits.maxKeys

/-- The name of the first limit that is zero. -/
def firstZero? (limits : Limits) : Option String :=
  ([("max_depth", limits.maxDepth), ("max_nodes", limits.maxNodes),
    ("max_sort_keys", limits.maxKeys)].find? fun (_, limit) => limit = 0).map (·.1)

/-- Limits are positive if none of them is the first that is zero. -/
theorem firstZero?_eq_none_iff : limits.firstZero? = none ↔ limits.Positive := by
  simp only [firstZero?, Option.map_eq_none_iff, List.find?_eq_none, List.forall_mem_cons,
    decide_eq_true_eq, List.not_mem_nil, false_implies, implies_true, and_true,
    ← Nat.pos_iff_ne_zero]
  exact ⟨fun ⟨hdepth, hnodes, hkeys⟩ => ⟨hdepth, hnodes, hkeys⟩,
    fun ⟨hdepth, hnodes, hkeys⟩ => ⟨hdepth, hnodes, hkeys⟩⟩

/-- What is reported of a limit that is zero. -/
def zeroFault (name : String) : Fault :=
  .configuration (name ++ " must be positive")

/-- The check of a limit fails if the limit is zero. -/
theorem errorOf?_checkPositive (name : String) (limit : Nat) :
    errorOf? (checkPositive name limit) = if limit = 0 then some (zeroFault name) else none := by
  unfold checkPositive
  split <;> rfl

/-- The check of limits fails for the first one that is zero. -/
theorem errorOf?_check (limits : Limits) :
    errorOf? limits.check = limits.firstZero?.map zeroFault := by
  rw [check, errorOf?_bind fun _ _ => errorOf?_bind fun _ _ => errorOf?_checkPositive _ _,
    errorOf?_checkPositive, errorOf?_checkPositive]
  by_cases hdepth : limits.maxDepth = 0
  · simp [firstZero?, hdepth]
  · by_cases hnodes : limits.maxNodes = 0
    · simp [firstZero?, hdepth, hnodes]
    · by_cases hkeys : limits.maxKeys = 0
      · simp [firstZero?, hdepth, hnodes, hkeys]
      · simp [firstZero?, hdepth, hnodes, hkeys]

/-- Limits pass the check if they are positive. -/
theorem exists_check_iff : (∃ passed, limits.check = .ok passed) ↔ limits.Positive := by
  rw [← errorOf?_eq_none_iff, errorOf?_check, Option.map_eq_none_iff, firstZero?_eq_none_iff]

/-! ## What a document gives -/

/-- Limits that words of 64 bits hold. -/
structure Fits (limits : Limits) : Prop where
  depth_le : limits.maxDepth ≤ Number.maxWord
  nodes_le : limits.maxNodes ≤ Number.maxWord
  keys_le : limits.maxKeys ≤ Number.maxWord

/-- The values of the fields of limits. -/
def values (limits : Limits) : List Document :=
  [.ofNatural limits.maxDepth, .ofNatural limits.maxNodes, .ofNatural limits.maxKeys,
    .bool limits.strictPaths]

/-- The fields of limits, each with its usual value. -/
def fields : List Field :=
  [⟨["max_depth"], .ofNatural 64⟩, ⟨["max_nodes"], .ofNatural 1024⟩,
    ⟨["max_sort_keys"], .ofNatural 16⟩, ⟨["strict_field_paths"], .bool true⟩]

/-- Limits are what a document gives, completed by the usual values: of every field an object has
one member with the value of the limits, or no member and the value is the usual one; and an array
has the values of the first fields as its items, and those of the others are the usual ones. -/
inductive Completes (limits : Limits) : Document → Prop
  | object {members : List (String × Document)} :
    List.Forall₂ (Form.Gives members) fields limits.values → Completes limits (Form.object members)
  | array {items : List Document} :
    items.length ≤ fields.length →
    limits.values = items ++ (fields.drop items.length).map Field.blank →
    Completes limits (.array items)

/-- The values of the fields in a document are those of the limits that complete it. -/
theorem valuesOr_eq_some_iff :
    form.valuesOr (values {}) document = some limits.values ↔ limits.Completes document := by
  have hblanks : values {} = fields.map Field.blank := rfl
  constructor
  · intro hvalues
    cases document with
    | object members =>
      obtain ⟨given, hgiven, _⟩ := Option.map_eq_some_iff.mp hvalues
      obtain ⟨named, hnamed⟩ := Form.exists_object_of_fields hgiven
      rw [hnamed] at hvalues ⊢
      exact .object ((Form.valuesOr_object_iff rfl).mp hvalues)
    | array items =>
      obtain ⟨hlength, hitems⟩ := (Form.valuesOr_array_iff rfl).mp hvalues
      rw [hblanks, ← List.map_drop] at hitems
      exact .array hlength hitems
    | null | bool | number | string => cases hvalues
  · intro hcompletes
    cases hcompletes with
    | object hmembers => exact (Form.valuesOr_object_iff rfl).mpr hmembers
    | array hlength hitems =>
      rw [List.map_drop, ← hblanks] at hitems
      exact (Form.valuesOr_array_iff rfl).mpr ⟨hlength, hitems⟩

/-- Limits are read from a document if they complete it, and if words of 64 bits hold them. -/
theorem ofDocument?_eq_some_iff :
    ofDocument? document = some limits ↔ limits.Fits ∧ limits.Completes document := by
  rw [← valuesOr_eq_some_iff, Form.valuesOr, Option.map_eq_some_iff, ofDocument?]
  constructor
  · intro hread
    obtain ⟨given, hgiven, hread⟩ := Option.bind_eq_some_iff.mp hread
    split at hread
    · simp only [Option.bind_eq_bind, Option.bind_eq_some_iff, Option.some.injEq] at hread
      obtain ⟨_, hdepth, _, hnodes, _, hkeys, _, hpaths, rfl⟩ := hread
      obtain ⟨hdepthLe, hdepth⟩ := (Form.natural_eq_some_iff (by decide)).mp hdepth
      obtain ⟨hnodesLe, hnodes⟩ := (Form.natural_eq_some_iff (by decide)).mp hnodes
      obtain ⟨hkeysLe, hkeys⟩ := (Form.natural_eq_some_iff (by decide)).mp hkeys
      have hpaths := Form.flag_eq_some_iff.mp hpaths
      refine ⟨⟨hdepthLe, hnodesLe, hkeysLe⟩, _, hgiven, ?_⟩
      simp only [values, List.zipWith_cons_cons, List.zipWith_nil_left, hdepth, hnodes, hkeys,
        hpaths]
    · cases hread
  · rintro ⟨hfits, given, hgiven, hvalues⟩
    obtain ⟨depth, nodes, keys, paths, rfl⟩ :=
      List.length_eq_four.mp (Form.length_fields hgiven)
    simp only [values, List.zipWith_cons_cons, List.zipWith_nil_left, List.cons.injEq,
      and_true] at hvalues
    obtain ⟨hdepth, hnodes, hkeys, hpaths⟩ := hvalues
    have hdepth := (Form.natural_eq_some_iff (by decide)).mpr ⟨hfits.depth_le, hdepth⟩
    have hnodes := (Form.natural_eq_some_iff (by decide)).mpr ⟨hfits.nodes_le, hnodes⟩
    have hkeys := (Form.natural_eq_some_iff (by decide)).mpr ⟨hfits.keys_le, hkeys⟩
    have hpaths := Form.flag_eq_some_iff.mpr hpaths
    rw [hgiven]
    simp only [Option.bind_eq_bind, Option.bind_some, hdepth, hnodes, hkeys, hpaths]

/-! ## Texts -/

/-- Limits complete the document of their own text, which gives all of them. -/
theorem completes_toRecord (limits : Limits) : limits.Completes (ofRecord limits.toRecord) := by
  have hobject : ofRecord limits.toRecord =
      Form.object (form.members (limits.values.map some)) := rfl
  rw [← valuesOr_eq_some_iff, hobject, Form.valuesOr,
    Form.fields_object_members (by decide) (by decide) rfl]
  rfl

/-- A text whose document limits complete is read as these limits, if they pass the check. -/
theorem ofText_of_completes {text : String} (htext : Document.ofText? text = some document)
    (hfits : limits.Fits) (hcompletes : limits.Completes document) :
    ofText text = limits.check.map fun _ => limits := by
  rw [ofText, htext, Option.bind_some, ofDocument?_eq_some_iff.mpr ⟨hfits, hcompletes⟩]
  dsimp only
  cases limits.check <;> rfl

/-- Limits are read from a text if they are positive and complete what the text gives. -/
theorem ofText_eq_ok_iff {text : String} :
    ofText text = .ok limits ↔ limits.Positive ∧ limits.Fits ∧
      ∃ document, Document.ofText? text = some document ∧ limits.Completes document := by
  constructor
  · intro hread
    cases hdocument : (Document.ofText? text).bind ofDocument? with
    | none =>
      rw [ofText, hdocument] at hread
      cases hread
    | some given =>
      obtain ⟨document, htext, hgiven⟩ := Option.bind_eq_some_iff.mp hdocument
      obtain ⟨hfits, hcompletes⟩ := ofDocument?_eq_some_iff.mp hgiven
      rw [ofText_of_completes htext hfits hcompletes] at hread
      obtain ⟨passed, hcheck, rfl⟩ := map_eq_ok_iff.mp hread
      exact ⟨exists_check_iff.mp ⟨passed, hcheck⟩, hfits, document, htext, hcompletes⟩
  · rintro ⟨hpositive, hfits, document, htext, hcompletes⟩
    obtain ⟨passed, hcheck⟩ := exists_check_iff.mpr hpositive
    rw [ofText_of_completes htext hfits hcompletes, hcheck]
    rfl

/-- Limits that words of 64 bits hold are read back from their own text if they are positive, and
else this text is rejected for the first limit that is zero. A text is read as limits exactly if they
are positive, words of 64 bits hold them, and they are what the document of the text gives, completed
by the usual values; and then they are also read from their own text. -/
theorem ofText_completes :
    (∀ limits : Limits, limits.Fits →
      (limits.Positive → ofText limits.toText = .ok limits) ∧
      (¬ limits.Positive → ∃ name fault, limits.firstZero? = some name ∧
        ofText limits.toText = .error fault ∧ fault.code = "QUERY_CONFIG" ∧
        fault.message = "Invalid configuration: " ++ (name ++ " must be positive"))) ∧
    ∀ text limits,
      (ofText text = .ok limits ↔ limits.Positive ∧ limits.Fits ∧
        ∃ document, Document.ofText? text = some document ∧ limits.Completes document) ∧
      (ofText text = .ok limits → ofText limits.toText = .ok limits) := by
  have hown : ∀ limits : Limits, limits.Fits → limits.Positive →
      ofText limits.toText = .ok limits := by
    intro limits hfits hpositive
    exact ofText_eq_ok_iff.mpr
      ⟨hpositive, hfits, _, Document.ofText?_write limits.toRecord, completes_toRecord limits⟩
  refine ⟨fun limits hfits => ⟨hown limits hfits, fun hzero => ?_⟩,
    fun text limits => ⟨ofText_eq_ok_iff, fun hread => ?_⟩⟩
  · obtain ⟨name, hname⟩ :=
      Option.ne_none_iff_exists'.mp (mt firstZero?_eq_none_iff.mp hzero)
    have hcheck := errorOf?_check limits
    rw [hname, Option.map_some, errorOf?_eq_some_iff] at hcheck
    refine ⟨name, zeroFault name, hname, ?_, rfl, rfl⟩
    have htext : Document.ofText? limits.toText = some (ofRecord limits.toRecord) :=
      Document.ofText?_write limits.toRecord
    rw [ofText_of_completes htext hfits (completes_toRecord limits), hcheck]
    rfl
  · obtain ⟨hpositive, hfits, _⟩ := ofText_eq_ok_iff.mp hread
    exact hown limits hfits hpositive

/-- The largest limits; limits of which two are zero; an array of two items; and an object without
the first member and the third. -/
theorem ofText_completes_short :
    let largest : Limits := ⟨Number.maxWord, Number.maxWord, Number.maxWord, false⟩
    let zeros : Limits := { maxNodes := 0, maxKeys := 0 }
    let short : Limits := { maxDepth := 8, maxNodes := 2 }
    let loose : Limits := { maxNodes := 32, strictPaths := false }
    (largest.Fits ∧ largest.Positive ∧ ofText largest.toText = .ok largest) ∧
    (zeros.Fits ∧ ¬ zeros.Positive ∧ ∃ name fault, zeros.firstZero? = some name ∧
      ofText zeros.toText = .error fault ∧ fault.code = "QUERY_CONFIG" ∧
      fault.message = "Invalid configuration: " ++ (name ++ " must be positive")) ∧
    (ofText "[8, 2]" = .ok short ∧ ofText short.toText = .ok short) ∧
    ofText "\x7b\"strict_field_paths\":false,\"x\":[0],\"max_nodes\":32\x7d" = .ok loose ∧
      ofText loose.toText = .ok loose := by
  intro largest zeros short loose
  obtain ⟨hown, hread⟩ := ofText_completes
  have hlargestFits : largest.Fits := ⟨Nat.le_refl _, Nat.le_refl _, Nat.le_refl _⟩
  have hlargest : largest.Positive := ⟨by decide, by decide, by decide⟩
  have hzerosFits : zeros.Fits := ⟨by decide, by decide, by decide⟩
  have hzeros : ¬ zeros.Positive := fun hpositive => absurd hpositive.nodes_pos (by decide)
  have hshort : ofText "[8, 2]" = .ok short := by
    refine (hread _ _).1.mpr ⟨⟨by decide, by decide, by decide⟩, ⟨by decide, by decide, by decide⟩,
      .array [ofNatural 8, ofNatural 2], ?_, .array (by decide) rfl⟩
    exact Document.ofText?_eq_some_iff.mpr (by decide +kernel)
  have hloose :
      ofText "\x7b\"strict_field_paths\":false,\"x\":[0],\"max_nodes\":32\x7d" = .ok loose := by
    have hgives : List.Forall₂ (Form.Gives [("strict_field_paths", .bool false),
        ("x", .array [ofNatural 0]), ("max_nodes", ofNatural 32)]) fields loose.values :=
      .cons (.inr ⟨rfl, rfl⟩) (.cons (.inl rfl) (.cons (.inr ⟨rfl, rfl⟩) (.cons (.inl rfl) .nil)))
    refine (hread _ _).1.mpr ⟨⟨by decide, by decide, by decide⟩, ⟨by decide, by decide, by decide⟩,
      _, ?_, .object hgives⟩
    exact Document.ofText?_eq_some_iff.mpr (by decide +kernel)
  exact ⟨⟨hlargestFits, hlargest, (hown largest hlargestFits).1 hlargest⟩,
    ⟨hzerosFits, hzeros, (hown zeros hzerosFits).2 hzeros⟩,
    ⟨hshort, (hread _ short).2 hshort⟩, hloose, (hread _ loose).2 hloose⟩

end Limits

end RecordQuery
