import Mathlib.Logic.Relation
import RecordQuery.Proofs.Fields
import RecordQuery.Proofs.Json.Gaps

/-!
# Spellings of a request

A query can be requested in many ways. It is the same query after its members have been put into
another order, after a field has been given its other name, with members of unknown names, with
`null` where there may be nothing, with other gaps between the tokens, and with an array in place of
an object; and this at the query, at each of its filters and at each of its sort keys. Only a field
must not be given twice.
-/

namespace RecordQuery

/-! ## Changes to an object -/

/-- An object for a structure of a request, and the same object after one change. -/
inductive Edit (part : Part) : Document → Document → Prop
  /-- The members are put into another order. -/
  | permute {members others : List (String × Document)} :
    members.Perm others → Edit part (Form.object members) (Form.object others)
  /-- A member is given another name of its field. -/
  | rename {before behind : List (String × Document)} {field : Field}
    {name other : String} {value : Document} :
    field ∈ part.fields → name ∈ field.names → other ∈ field.names →
    Edit part (Form.object (before ++ (name, value) :: behind))
      (Form.object (before ++ (other, value) :: behind))
  /-- A member with a name of no field is added. -/
  | extend {before behind : List (String × Document)} {name : String} {value : Document} :
    (∀ field ∈ part.fields, name ∉ field.names) →
    Edit part (Form.object (before ++ behind)) (Form.object (before ++ (name, value) :: behind))
  /-- A field that is not given, and may be `null`, is given as `null`. -/
  | addNull {before behind : List (String × Document)} {field : Field} {name : String} :
    field ∈ part.fields → field.blank = .null → name ∈ field.names →
    (∀ member ∈ before ++ behind, member.1 ∉ field.names) →
    Edit part (Form.object (before ++ behind)) (Form.object (before ++ (name, .null) :: behind))
  /-- A field that is given as `null`, and may be left out, is left out. -/
  | dropNull {before behind : List (String × Document)} {field : Field} {name : String} :
    field ∈ part.fields → field.blank = .null → name ∈ field.names →
    Edit part (Form.object (before ++ (name, .null) :: behind)) (Form.object (before ++ behind))
  /-- The object, which has only members of fields, is replaced by the array of their values. -/
  | list {members : List (String × Document)} :
    (∀ member ∈ members, ∃ field ∈ part.fields, member.1 ∈ field.names) →
    Edit part (Form.object members) (.array (part.listed members))

/-- A change to an object does not change the values of its fields. -/
theorem Edit.values_eq {part : Part} {document edited : Document} {values : List Document}
    (hedit : Edit part document edited) (hvalues : part.values document = some values) :
    part.values edited = some values := by
  cases hedit with
  | permute hperm =>
    exact Part.values_object_of_gives hvalues fun _ _ _ hgives => hgives.of_perm hperm
  | @rename before behind own name other value hown hname hother =>
    refine Part.values_object_of_gives hvalues fun field hfield given hgives => ?_
    by_cases hmem : name ∈ field.names
    · obtain rfl := Part.eq_of_mem hown hfield hname hmem
      obtain ⟨rfl, hbefore, hbehind⟩ := hgives.alone hname
      exact Form.gives_of_mem hother hbefore hbehind
    · have hmem' : other ∉ field.names := by
        intro hmem'
        obtain rfl := Part.eq_of_mem hown hfield hother hmem'
        exact hmem hname
      rw [Form.gives_iff_of_not_mem hmem] at hgives
      exact (Form.gives_iff_of_not_mem hmem').mpr hgives
  | extend hunknown =>
    exact Part.values_object_of_gives hvalues fun field hfield _ hgives =>
      (Form.gives_iff_of_not_mem (hunknown field hfield)).mpr hgives
  | @addNull before behind own name hown hblank hname habsent =>
    refine Part.values_object_of_gives hvalues fun field hfield given hgives => ?_
    by_cases hmem : name ∈ field.names
    · obtain rfl := Part.eq_of_mem hown hfield hname hmem
      have hnone := Form.given_eq_nil habsent
      obtain ⟨_, rfl⟩ := hgives.resolve_left (by simp [hnone])
      rw [Form.given_append, List.append_eq_nil_iff] at hnone
      rw [hblank]
      exact Form.gives_of_mem hname hnone.1 hnone.2
    · exact (Form.gives_iff_of_not_mem hmem).mpr hgives
  | @dropNull before behind own name hown hblank hname =>
    refine Part.values_object_of_gives hvalues fun field hfield given hgives => ?_
    by_cases hmem : name ∈ field.names
    · obtain rfl := Part.eq_of_mem hown hfield hname hmem
      obtain ⟨rfl, hbefore, hbehind⟩ := hgives.alone hname
      refine .inr ⟨?_, hblank.symm⟩
      rw [Form.given_append, hbefore, hbehind, List.append_nil]
    · exact (Form.gives_iff_of_not_mem hmem).mp hgives
  | list =>
    rw [Part.values_array_iff, ← Part.eq_listed hvalues, Part.length_of_values hvalues,
      ← part.length_blanks, List.drop_length, List.append_nil]
    exact ⟨Nat.le_refl _, rfl⟩

/-! ## Places in a request -/

/-- The documents in which a field of a structure has a given value: objects with a member of this
field, and arrays with an item for it. -/
inductive Slot (part : Part) (position : Nat) : (Document → Document) → Prop
  | member {before behind : List (Option String × Document)} {field : Field}
    {name : String} :
    part.fields[position]? = some field → name ∈ field.names →
    Slot part position fun value => .object (before ++ (some name, value) :: behind)
  | item {before behind : List Document} :
    before.length = position →
    Slot part position fun value => .array (before ++ value :: behind)

/-- The values that hold a structure of a request, for a field of another one: the filter of a
query, one of its sort keys, and one child of a filter. -/
inductive Holds : Part → Nat → Part → (Document → Document) → Prop
  | filter : Holds .query 0 .filter id
  | key {before behind : List Document} :
    Holds .query 1 .key fun key => .array (before ++ key :: behind)
  | child {before behind : List Document} :
    Holds .filter 4 .filter fun child => .array (before ++ child :: behind)

/-- The places at which a structure stands in another one: at the top, or at such a place in a
structure that a field holds. -/
inductive Place : Part → Part → (Document → Document) → Prop
  | top {part : Part} : Place part part id
  | inside {outer middle inner : Part} {position : Nat} {slot hold place : Document → Document} :
    Slot outer position slot → Holds outer position middle hold → Place middle inner place →
    Place outer inner fun document => slot (hold (place document))

/-- Lists that correspond item by item do so at every position. -/
theorem exists_getElem?_of_forall₂ {α β : Type} {R : α → β → Prop} {items : List α}
    {results : List β} {position : Nat} {item : α} (hresults : List.Forall₂ R items results)
    (hitem : items[position]? = some item) :
    ∃ result, results[position]? = some result ∧ R item result := by
  obtain ⟨hposition, rfl⟩ := List.getElem?_eq_some_iff.mp hitem
  obtain ⟨hlength, hitems⟩ := List.forall₂_iff_get.mp hresults
  have hposition' : position < results.length := by rwa [← hlength]
  exact ⟨_, List.getElem?_eq_getElem hposition', hitems position hposition hposition'⟩

/-- Lists that correspond item by item correspond after a change at one position. -/
theorem forall₂_set {α β : Type} {R S : α → β → Prop} {items : List α} {results : List β}
    {position : Nat} {item : α} {result : β} (hitem : items[position]? = some item)
    (hresults : List.Forall₂ R items results) (hresult : S item result)
    (hothers : ∀ i a b, i ≠ position → items[i]? = some a → R a b → S a b) :
    List.Forall₂ S items (results.set position result) := by
  rw [List.forall₂_iff_get] at hresults ⊢
  obtain ⟨hlength, hitems⟩ := hresults
  refine ⟨by rw [hlength, List.length_set], fun i hi hi' => ?_⟩
  rw [List.length_set] at hi'
  by_cases hposition : i = position
  · subst hposition
    rw [List.getElem?_eq_getElem hi] at hitem
    simpa [Option.some.inj hitem] using hresult
  · have hsame := hothers i _ _ hposition (List.getElem?_eq_getElem hi) (hitems i hi hi')
    simpa [List.getElem_set_ne (Ne.symm hposition)] using hsame

/-- The value in a slot is that of its field, and a change to it is a change to this field only. -/
theorem Slot.values_eq {part : Part} {position : Nat} {slot : Document → Document}
    {value : Document} {values : List Document} (hslot : Slot part position slot)
    (hvalues : part.values (slot value) = some values) :
    values[position]? = some value ∧
      ∀ other, part.values (slot other) = some (values.set position other) := by
  cases hslot with
  | @member before behind field name hfield hname =>
    obtain ⟨given, hgiven, _⟩ := Option.map_eq_some_iff.mp hvalues
    obtain ⟨named, hnamed⟩ := Form.exists_object_of_fields hgiven
    obtain ⟨first, last, rfl, hobject⟩ := Form.exists_object_append hnamed
    simp only [hobject, Part.values_object_iff] at hvalues ⊢
    obtain ⟨result, hresult, hgives⟩ := exists_getElem?_of_forall₂ hvalues hfield
    obtain ⟨rfl, hfirst, hlast⟩ := hgives.alone hname
    refine ⟨hresult, fun other => forall₂_set hfield hvalues
      (Form.gives_of_mem hname hfirst hlast) fun i another value hi hanother hvalue => ?_⟩
    -- The name belongs to no other field, so these have the members that they had.
    have hmem : name ∉ another.names := fun hmem =>
      hi (Part.index_eq_of_mem hanother hfield hmem hname)
    rw [Form.gives_iff_of_not_mem hmem] at hvalue ⊢
    exact hvalue
  | @item before behind hposition =>
    subst hposition
    obtain ⟨hle, rfl⟩ := Part.values_array_iff.mp hvalues
    refine ⟨by simp, fun other => Part.values_array_iff.mpr ⟨by simpa using hle, by simp⟩⟩

/-- Where a list of documents is read, one of them can be replaced by what is read as the same. -/
theorem exists_of_forall₂_append {α : Type} {R : Document → α → Prop}
    {before behind : List Document} {document : Document} {results : List α}
    (hread : List.Forall₂ R (before ++ document :: behind) results) :
    ∃ result, R document result ∧
      ∀ other, R other result → List.Forall₂ R (before ++ other :: behind) results := by
  induction before generalizing results with
  | nil =>
    obtain ⟨result, rest, hresult, hrest, rfl⟩ := List.forall₂_cons_left_iff.mp hread
    exact ⟨result, hresult, fun other hother => .cons hother hrest⟩
  | cons first before ih =>
    obtain ⟨result, rest, hresult, hrest, rfl⟩ := List.forall₂_cons_left_iff.mp hread
    obtain ⟨inner, hinner, hothers⟩ := ih hrest
    exact ⟨inner, hinner, fun other hother => .cons hresult (hothers other hother)⟩

/-- What is given for a filter, and is not `null`, is read as a filter. -/
theorem Query.filterOf?_of_ne_null {document : Document} (hdocument : document ≠ .null) :
    filterOf? (some document) = (Filter.ofDocument? nestingLimit document).map some := by
  cases document with
  | null => exact absurd rfl hdocument
  | _ => rfl

/-- No filter is read from `null`. -/
theorem Filter.ne_null_of_ofDocument? {levels : Nat} {document : Document} {filter : Filter}
    (hread : ofDocument? levels document = some filter) : document ≠ .null := by
  rintro rfl
  cases levels <;> cases hread

/-- The structure that a field holds is read by itself, and can be replaced by what is read as the
same. -/
theorem Holds.exists_reading {outer inner : Part} {position : Nat} {hold : Document → Document}
    {reading : Reading} {document : Document} {values : List Document}
    (hholds : Holds outer position inner hold) (hpart : reading.part = outer)
    (hdocument : document ≠ .null) (hread : reading.OfValues values)
    (hvalue : values[position]? = some (hold document)) :
    ∃ held : Reading, held.part = inner ∧ held.Of document ∧
      ∀ other, held.Of other → reading.OfValues (values.set position (hold other)) := by
  cases hholds with
  | filter =>
    match reading, values, hread with
    | .query request, [_, keys], ⟨hroot, hkeys⟩ =>
      obtain rfl := Option.some.inj hvalue
      rw [Query.filterOf?_of_ne_null hdocument] at hroot
      obtain ⟨filter, hfilter, hrequest⟩ := Option.map_eq_some_iff.mp hroot
      refine ⟨.filter nestingLimit filter, rfl, hfilter, fun other hother => ⟨?_, hkeys⟩⟩
      rw [id_eq, Query.filterOf?_of_ne_null (Filter.ne_null_of_ofDocument? hother)]
      exact Option.map_eq_some_iff.mpr ⟨filter, hother, hrequest⟩
  | key =>
    match reading, values, hread with
    | .query request, [root, _], ⟨hroot, hkeys⟩ =>
      obtain rfl := Option.some.inj hvalue
      obtain ⟨keys, hkeys, hrequest⟩ := Option.map_eq_some_iff.mp hkeys
      obtain ⟨key, hkey, hothers⟩ :=
        exists_of_forall₂_append (mapM_eq_some_iff_forall₂.mp hkeys)
      refine ⟨.key key, rfl, hkey, fun other hother => ⟨hroot, ?_⟩⟩
      have hread := mapM_eq_some_iff_forall₂.mpr (hothers other hother)
      exact Option.map_eq_some_iff.mpr ⟨keys, hread, hrequest⟩
  | child =>
    match reading, values, hread with
    | .filter (levels + 1) request, [_, _, _, _, _],
        ⟨hfield, hoperator, hvalue', hconnective, items, hitems, hchildren⟩ =>
      obtain rfl := Option.some.inj hvalue
      obtain rfl := Option.some.inj hitems
      obtain ⟨child, hchild, hothers⟩ := exists_of_forall₂_append hchildren
      exact ⟨.filter levels child, rfl, hchild, fun other hother =>
        ⟨hfield, hoperator, hvalue', hconnective, _, rfl, hothers other hother⟩⟩

/-- What stands at a place is not `null` if its structure is not. -/
theorem Place.ne_null {outer inner : Part} {place : Document → Document} {document : Document}
    (hplace : Place outer inner place) (hdocument : document ≠ .null) : place document ≠ .null := by
  cases hplace with
  | top => exact hdocument
  | inside hslot _ _ => cases hslot <;> simp

/-- The structure at a place of what is read is read by itself, and can be replaced by what is read
as the same. -/
theorem Place.exists_reading {outer inner : Part} {place : Document → Document}
    {reading : Reading} {document : Document} (hplace : Place outer inner place)
    (hpart : reading.part = outer) (hdocument : document ≠ .null)
    (hread : reading.Of (place document)) :
    ∃ held : Reading, held.part = inner ∧ held.Of document ∧
      ∀ other, held.Of other → reading.Of (place other) := by
  -- Going inwards, what is read of the whole is read of what the field holds.
  induction hplace generalizing reading with
  | top => exact ⟨reading, hpart, hread, fun _ hother => hother⟩
  | @inside outer middle inner position slot hold place hslot hholds hplace ih =>
    subst hpart
    obtain ⟨values, hvalues, hread⟩ := Reading.of_iff.mp hread
    obtain ⟨hvalue, hothers⟩ := hslot.values_eq hvalues
    obtain ⟨middle, hmiddle, hread, hheld⟩ :=
      hholds.exists_reading rfl (hplace.ne_null hdocument) hread hvalue
    obtain ⟨held, hinner, hread, hback⟩ := ih hmiddle hread
    exact ⟨held, hinner, hread, fun other hother =>
      Reading.of_iff.mpr ⟨_, hothers _, hheld _ (hback other hother)⟩⟩

/-- What is changed is an object. -/
theorem Edit.exists_object {part : Part} {document edited : Document}
    (hedit : Edit part document edited) : ∃ members, document = Form.object members := by
  cases hedit <;> exact ⟨_, rfl⟩

/-- What is read with an object at some place is read as the same after a change to this object. -/
theorem Place.of_edit {outer inner : Part} {place : Document → Document} {reading : Reading}
    {document edited : Document} (hplace : Place outer inner place)
    (hedit : Edit inner document edited) (hpart : reading.part = outer)
    (hread : reading.Of (place document)) : reading.Of (place edited) := by
  have hdocument : document ≠ .null := by
    obtain ⟨members, rfl⟩ := hedit.exists_object
    simp [Form.object]
  obtain ⟨held, rfl, hheld, hback⟩ := hplace.exists_reading hpart hdocument hread
  obtain ⟨values, hvalues, hheld⟩ := Reading.of_iff.mp hheld
  exact hback edited (Reading.of_iff.mpr ⟨values, hedit.values_eq hvalues, hheld⟩)

/-! ## Fields that are given twice -/

/-- The members of an object give a field of a structure twice, under the same name or under two of
its names. -/
def Part.Repeats (part : Part) (members : List (Option String × Document)) : Prop :=
  ∃ field ∈ part.fields, ∃ first ∈ field.names, ∃ second ∈ field.names, ∃ value other,
    [(some first, value), (some second, other)].Sublist members

/-- Nothing is read from an object that gives a field twice. -/
theorem Reading.not_of_repeats {reading : Reading} {members : List (Option String × Document)}
    (hrepeats : reading.part.Repeats members) : ¬ reading.Of (.object members) := by
  intro hread
  obtain ⟨field, hfield, first, hfirst, second, hsecond, value, other, hsublist⟩ := hrepeats
  obtain ⟨values, hvalues, _⟩ := Reading.of_iff.mp hread
  obtain ⟨given, hgiven, _⟩ := Option.map_eq_some_iff.mp hvalues
  obtain ⟨named, hnamed⟩ := Form.exists_object_of_fields hgiven
  obtain rfl := Json.object.inj hnamed
  have htwice : [(first, value), (second, other)].Sublist named := by
    obtain ⟨found, hfound, heq⟩ := List.sublist_map_iff.mp hsublist
    match found with
    | [_, _] => simp_all
  have hgivenTwice : [value, other].Sublist (Form.given named field.names) := by
    have hgivenOf : Form.given [(first, value), (second, other)] field.names = [value, other] := by
      simp [Form.given, hfirst, hsecond]
    rw [← hgivenOf]
    exact (htwice.filter _).map _
  obtain ⟨position, hposition⟩ := List.mem_iff_getElem?.mp hfield
  obtain ⟨_, _, hgives⟩ :=
    exists_getElem?_of_forall₂ (Part.values_object_iff.mp hvalues) hposition
  have hlength := hgivenTwice.length_le
  rcases hgives with hone | ⟨hnone, _⟩
  · simp [hone] at hlength
  · simp [hnone] at hlength

/-! ## Spellings -/

namespace Query

open Document

/-- The text of a request and the same request after one change of its spelling: to a gap between
tokens, or to an object at one of the places where a query, a filter or a sort key is expected. -/
inductive Respells : String → String → Prop
  | gap {text other : String} :
    Token.Respaces text.toList other.toList → Respells text other
  | edit {text other : String} {part : Part} {place : Document → Document}
    {document edited : Document} :
    Place .query part place → Edit part document edited →
    Token.scan text.toList = some (place document).tokens →
    Token.scan other.toList = some (place edited).tokens → Respells text other

/-- A request is the same query after one change of its spelling. -/
theorem ofText_of_respells {text other : String} {query : Query} (hrespells : Respells text other)
    (hread : ofText text = .ok query) : ofText other = .ok query := by
  rw [ofText_eq_ok_iff, Option.bind_eq_some_iff] at hread ⊢
  obtain ⟨document, hdocument, hread⟩ := hread
  cases hrespells with
  | gap hrespaces => exact ⟨document, Document.ofText?_of_respaces hrespaces hdocument, hread⟩
  | @edit part place source edited hplace hedit htext hother =>
    rw [← Document.ofText?_eq_some_iff] at htext hother
    obtain rfl := Option.some.inj (htext.symm.trans hdocument)
    have hreading : (Reading.query query).Of (place source) := hread
    exact ⟨place edited, hother, hplace.of_edit hedit rfl hreading⟩

/-- However the spelling of a request is changed, at any of its queries, filters and sort keys and
any number of times, the request is the same query. A text with an object in one of these places
that gives a field twice is no request. -/
theorem ofText_respelled :
    (∀ text other query, Relation.ReflTransGen Respells text other → ofText text = .ok query →
      ofText other = .ok query) ∧
    ∀ (text : String) (part : Part) (place : Document → Document)
      (members : List (Option String × Document)),
      Place .query part place → part.Repeats members →
      Token.scan text.toList = some (place (.object members)).tokens →
      ∃ fault, ofText text = .error fault ∧ fault.code = "QUERY_INVALID_REQUEST" := by
  refine ⟨fun text other query hrespells hread => ?_,
    fun text part place members hplace hrepeats htext => ?_⟩
  · induction hrespells with
    | refl => exact hread
    | tail _ hlast ih => exact ofText_of_respells hlast ih
  · refine ⟨_, ofText_eq_error ?_, rfl⟩
    rw [← Document.ofText?_eq_some_iff] at htext
    rw [htext, Option.bind_some, Option.eq_none_iff_forall_ne_some]
    intro query hread
    have hreading : (Reading.query query).Of (place (.object members)) := hread
    obtain ⟨held, rfl, hheld, _⟩ := hplace.exists_reading rfl (by simp) hreading
    exact Reading.not_of_repeats hrepeats hheld

/-- A filter that is given its children under the other name, a sort key that becomes an array, and
a gap; and a sort key that is given its direction under both names. -/
theorem ofText_respelled_steps :
    let text := "\x7b\"filter\":\x7b\"filters\":[\x7b\"x\":1,\"field\":\"a\"\x7d]\x7d," ++
      "\"sort\":[\x7b\"dir\":\"desc\",\"field\":\"n\"\x7d]\x7d"
    let other := "\x7b \"filter\":\x7b\"children\":[\x7b\"x\":1,\"field\":\"a\"\x7d]\x7d," ++
      "\"sort\":[[\"n\",\"desc\"]]\x7d"
    let twice := "\x7b\"sort\":[\x7b\"dir\":\"asc\",\"field\":\"n\",\"direction\":\"asc\"\x7d]\x7d"
    ∃ query, ofText text = .ok query ∧ Relation.ReflTransGen Respells text other ∧
      ofText other = .ok query ∧
      ∃ fault, ofText twice = .error fault ∧ fault.code = "QUERY_INVALID_REQUEST" := by
  intro text other twice
  obtain ⟨hsame, hrejected⟩ := ofText_respelled
  let children := Json.array [Form.object [("x", .number (.integer 1)), ("field", ofString "a")]]
  let members := [("dir", ofString "desc"), ("field", ofString "n")]
  let renamed := "\x7b\"filter\":\x7b\"children\":[\x7b\"x\":1,\"field\":\"a\"\x7d]\x7d," ++
    "\"sort\":[\x7b\"dir\":\"desc\",\"field\":\"n\"\x7d]\x7d"
  let behind := "\"filter\":\x7b\"children\":[\x7b\"x\":1,\"field\":\"a\"\x7d]\x7d," ++
    "\"sort\":[[\"n\",\"desc\"]]\x7d"
  have htext : Token.scan text.toList = some (Json.tokens (.object [
      (some "filter", Form.object [("filters", children)]),
      (some "sort", .array [Form.object members])])) := by
    decide +kernel
  have hrenamed : Token.scan renamed.toList = some (Json.tokens (.object [
      (some "filter", Form.object [("children", children)]),
      (some "sort", .array [Form.object members])])) := by
    decide +kernel
  have hlisted : Token.scan ("\x7b" ++ behind).toList = some (Json.tokens (.object [
      (some "filter", Form.object [("children", children)]),
      (some "sort", .array [.array [ofString "n", ofString "desc"]])])) := by
    decide +kernel
  have hfilter : Place .query .filter fun filter =>
      .object [(some "filter", filter), (some "sort", .array [Form.object members])] :=
    .inside (@Slot.member .query 0 [] _ _ "filter" rfl (by decide)) .filter .top
  have hkey : ∀ before, Place .query .key fun key =>
      .object (before ++ [(some "sort", .array [key])]) := fun before =>
    .inside (@Slot.member .query 1 before [] _ "sort" rfl (by decide)) (@Holds.key [] []) .top
  have hrename : Respells text renamed :=
    .edit hfilter (@Edit.rename .filter [] [] _ "filters" "children" children
      (List.mem_of_getElem? (i := 4) rfl) (by decide) (by decide)) htext hrenamed
  have hlist : Respells renamed ("\x7b" ++ behind) :=
    .edit (hkey [(some "filter", Form.object [("children", children)])])
      (@Edit.list .key members (by decide)) hrenamed hlisted
  have hgap : Respells ("\x7b" ++ behind) other := by
    have hbefore : ("\x7b" ++ behind).toList = ['\x7b'] ++ ([] ++ behind.toList) := by
      decide +kernel
    have hother : other.toList = ['\x7b'] ++ ([' '] ++ behind.toList) := by decide +kernel
    rw [hbefore] at hlisted
    refine .gap ?_
    rw [hbefore, hother]
    exact @Token.Respaces.gap _ _ _ _ [.openObject] _ (by decide +kernel) (by decide +kernel)
      hlisted (fun _ hc => absurd hc List.not_mem_nil) (List.forall_mem_singleton.mpr rfl)
  have hchain : Relation.ReflTransGen Respells text other :=
    ((Relation.ReflTransGen.single hrename).tail hlist).tail hgap
  have hread : ofText text = .ok {
      filter := some { children := [{ field := "a" }] }
      keys := some [{ field := "n", direction := "desc" }] } := by
    rw [ofText_eq_ok_iff, Document.ofText?_eq_some_iff.mpr htext]
    rfl
  have htwice : Part.key.Repeats [(some "dir", ofString "asc"), (some "field", ofString "n"),
      (some "direction", ofString "asc")] :=
    ⟨_, List.mem_of_getElem? (i := 1) rfl, "dir", by decide, "direction", by decide,
      ofString "asc", ofString "asc", .cons_cons _ (.cons _ (.cons_cons _ .slnil))⟩
  exact ⟨_, hread, hchain, hsame _ _ _ hchain hread,
    hrejected twice .key _ _ (hkey []) htwice (by decide +kernel)⟩

end Query

end RecordQuery
