import RecordQuery.Proofs.Json.Forms
import RecordQuery.Proofs.Nodes
import RecordQuery.Query.Text

/-!
# Requests

The text of a query is read as this query, if its filter has no more levels than a request may have.
This is so exactly if no more than 127 objects and arrays of the text are open at once.
-/

namespace RecordQuery

open Document

/-- A text as a document. -/
def Document.ofString (text : String) : Document :=
  .string (some text)

/-- A text that may be missing is read from its document. -/
theorem Form.optionalText_map_ofString (text : Option String) :
    Form.optionalText (text.map ofString) = some text := by
  cases text <;> rfl

namespace KeyRequest

/-- The members of a sort key are its fields. -/
theorem ofRecord_toRecord (request : KeyRequest) :
    ofRecord request.toRecord = Form.object (form.members
      [some (ofString request.field), some (ofString request.direction)]) := rfl

/-- A sort key is read from its value. -/
theorem ofDocument?_toRecord (request : KeyRequest) :
    ofDocument? (ofRecord request.toRecord) = some request := by
  rw [ofDocument?, ofRecord_toRecord, Form.fields_object_members (by decide) (by decide) rfl]
  rfl

end KeyRequest

namespace Filter

@[simp] theorem allToRecords_eq_map (filters : List Filter) :
    allToRecords filters = filters.map toRecord := by
  induction filters with
  | nil => rfl
  | cons filter filters ih => rw [allToRecords, ih, List.map_cons]

/-- The members of a filter are its fields. Those that it does not have are left out. -/
theorem ofRecord_toRecord (filter : Filter) :
    ofRecord filter.toRecord = Form.object (form.members
      [some (ofString filter.field), some (ofString filter.operator), filter.value.map ofString,
        filter.connective.map ofString,
        if filter.children = [] then none
        else some (.array (filter.children.map fun child => ofRecord child.toRecord))]) := by
  obtain ⟨field, operator, value, connective, children⟩ := filter
  rw [toRecord, Form.ofRecord_object]
  cases value <;> cases connective <;> cases children <;>
    simp [optionalMember, form, Form.members, ofString, ofRecord, Function.comp_def]

/-- A filter is read from a document if its fields are, and its children from the items of the last
one with one level less. -/
theorem ofDocument?_eq_some_iff {levels : Nat} {document : Document} {filter : Filter} :
    ofDocument? (levels + 1) document = some filter ↔
      ∃ field operator value connective children items,
        form.fields document = some [field, operator, value, connective, children] ∧
          Form.text field = some filter.field ∧ Form.text operator = some filter.operator ∧
          Form.optionalText value = some filter.value ∧
          Form.optionalText connective = some filter.connective ∧
          Form.items children = some items ∧
          List.Forall₂ (fun item child => ofDocument? levels item = some child) items
            filter.children := by
  rw [ofDocument?]
  constructor
  · intro hread
    obtain ⟨given, hgiven, hread⟩ := Option.bind_eq_some_iff.mp hread
    split at hread
    · simp only [Option.bind_eq_bind, Option.bind_eq_some_iff, Option.some.injEq,
        mapM_eq_some_iff_forall₂] at hread
      obtain ⟨_, hfield, _, hoperator, _, hvalue, _, hconnective, items, hitems, _, hchildren,
        rfl⟩ := hread
      exact ⟨_, _, _, _, _, items, hgiven, hfield, hoperator, hvalue, hconnective, hitems,
        hchildren⟩
    · cases hread
  · rintro ⟨field, operator, value, connective, children, items, hgiven, hfield, hoperator, hvalue,
      hconnective, hitems, hchildren⟩
    rw [hgiven]
    simp only [Option.bind_eq_bind, Option.bind_some, hfield, hoperator, hvalue, hconnective,
      hitems, mapM_eq_some_iff_forall₂.mpr hchildren]
    cases filter
    rfl

/-- The fields of a filter are those that its value has. -/
theorem fields_ofRecord_toRecord (filter : Filter) :
    form.fields (ofRecord filter.toRecord) = some
      [some (ofString filter.field), some (ofString filter.operator), filter.value.map ofString,
        filter.connective.map ofString,
        if filter.children = [] then none
        else some (.array (filter.children.map fun child => ofRecord child.toRecord))] := by
  rw [ofRecord_toRecord, Form.fields_object_members (by decide) (by decide) rfl]

/-- The children of a filter are the items of a field that is left out if there are none. -/
theorem items_ofRecord_children (children : List Filter) :
    Form.items (if children = [] then none
      else some (.array (children.map fun child => ofRecord child.toRecord))) =
        some (children.map fun child => ofRecord child.toRecord) := by
  split
  · next hnone => rw [hnone]; rfl
  · rfl

/-- A filter is read from its value, if it has no more levels than are read. -/
theorem ofDocument?_toRecord {filter : Filter} {levels : Nat} (hdepth : filter.depth ≤ levels) :
    ofDocument? levels (ofRecord filter.toRecord) = some filter := by
  induction filter using Filter.induction generalizing levels with
  | node filter ih =>
    obtain ⟨levels, rfl⟩ : ∃ less, levels = less + 1 :=
      Nat.exists_eq_add_one.mpr (Nat.lt_of_lt_of_le (by rw [depth_eq_foldr]; omega) hdepth)
    have hchildren := depth_le_add_one_iff.mp hdepth
    refine ofDocument?_eq_some_iff.mpr ⟨_, _, _, _, _, _, fields_ofRecord_toRecord filter, rfl, rfl,
      Form.optionalText_map_ofString _, Form.optionalText_map_ofString _,
      items_ofRecord_children _, ?_⟩
    rw [List.forall₂_map_left_iff]
    exact List.forall₂_same.mpr fun child hchild => ih child hchild (hchildren child hchild)

/-- A filter that has been read has no more levels than have been read. -/
theorem depth_le_of_ofDocument? {levels : Nat} {document : Document} {filter : Filter}
    (hread : ofDocument? levels document = some filter) : filter.depth ≤ levels := by
  induction levels generalizing document filter with
  | zero => cases hread
  | succ levels ih =>
    obtain ⟨_, _, _, _, _, items, _, _, _, _, _, _, hchildren⟩ := ofDocument?_eq_some_iff.mp hread
    have hdepths : List.Forall₂
        (fun child item => child.depth ≤ levels ∧ ofDocument? levels item = some child)
        filter.children items :=
      hchildren.flip.imp fun child item hitem => ⟨ih hitem, hitem⟩
    exact depth_le_add_one_iff.mpr ((List.forall₂_and_left _ _).mp hdepths).1

/-- What is read with a number of levels is read with any larger number. -/
theorem ofDocument?_of_le {levels more : Nat} {document : Document} {filter : Filter}
    (hle : levels ≤ more) (hread : ofDocument? levels document = some filter) :
    ofDocument? more document = some filter := by
  induction levels generalizing more document filter with
  | zero => cases hread
  | succ levels ih =>
    obtain ⟨more, rfl⟩ : ∃ less, more = less + 1 :=
      Nat.exists_eq_add_one.mpr (Nat.lt_of_lt_of_le (Nat.succ_pos levels) hle)
    obtain ⟨_, _, _, _, _, items, hgiven, hfield, hoperator, hvalue, hconnective, hitems,
      hchildren⟩ := ofDocument?_eq_some_iff.mp hread
    exact ofDocument?_eq_some_iff.mpr ⟨_, _, _, _, _, items, hgiven, hfield, hoperator, hvalue,
      hconnective, hitems, hchildren.imp fun _ _ => ih (Nat.le_of_succ_le_succ hle)⟩

/-- A filter has no more levels than are read, if any filter is read from its value. -/
theorem depth_le_of_ofDocument?_toRecord {filter other : Filter} {levels : Nat}
    (hread : ofDocument? levels (ofRecord filter.toRecord) = some other) :
    filter.depth ≤ levels := by
  have hother := ofDocument?_of_le (Nat.le_max_left levels filter.depth) hread
  rw [ofDocument?_toRecord (Nat.le_max_right levels filter.depth)] at hother
  obtain rfl := Option.some.inj hother
  exact depth_le_of_ofDocument? hread

end Filter

/-! ## Nesting -/

namespace Filter

mutual

/-- The filter that a document gives, if no more than a given number of containers are open for it
at once. The first one is that of the node. -/
def ofDocumentWithin? : Nat → Document → Option Filter
  | 0, _ => none
  | room + 1, document => do
    let [field, operator, value, connective, children] ← form.fields document | none
    let field ← Form.text field
    let operator ← Form.text operator
    let value ← Form.optionalText value
    let connective ← Form.optionalText connective
    let children ← childrenWithin? room children
    some { field, operator, value, connective, children }

/-- The children that are given for the field of a filter, if no more than a given number of
containers are open for them at once. The first one is the array in which they are. -/
def childrenWithin? : Nat → Option Document → Option (List Filter)
  | _, none => some []
  | room + 1, some (.array items) => items.mapM (ofDocumentWithin? room)
  | _, _ => none

end

/-- For every level that is read two containers are open. -/
theorem ofDocumentWithin?_eq (levels : Nat) (document : Document) :
    ofDocumentWithin? (2 * levels) document = ofDocument? levels document := by
  induction levels generalizing document with
  | zero => rfl
  | succ levels ih =>
    have hchildren : ∀ children, childrenWithin? (2 * levels + 1) children =
        (Form.items children).bind fun items => items.mapM (ofDocument? levels) := by
      intro children
      rw [← funext ih]
      rcases children with _ | (_ | _ | _ | _ | _ | _) <;> rfl
    rw [Nat.mul_add_one, ofDocumentWithin?, ofDocument?]
    refine bind_congr fun given => ?_
    match given with
    | [field, operator, value, connective, children] =>
      simp only [hchildren, Option.bind_eq_bind, Option.bind_assoc]
    | [] | [_] | [_, _] | [_, _, _] | [_, _, _, _] | _ :: _ :: _ :: _ :: _ :: _ :: _ => rfl

end Filter

namespace Json

mutual

/-- The largest number of arrays and objects of a value that are open at once. -/
def nesting : Record → Nat
  | array items => nestingOfItems items + 1
  | object members => nestingOfMembers members + 1
  | _ => 0

/-- The largest nesting of the items of an array. -/
def nestingOfItems : List Record → Nat
  | [] => 0
  | item :: items => max (nesting item) (nestingOfItems items)

/-- The largest nesting of the values of an object. -/
def nestingOfMembers : List (String × Record) → Nat
  | [] => 0
  | (_, value) :: members => max (nesting value) (nestingOfMembers members)

end

/-- The nesting of two parts of an object is the larger one. -/
theorem nestingOfMembers_append (first second : List (String × Record)) :
    nestingOfMembers (first ++ second) =
      max (nestingOfMembers first) (nestingOfMembers second) := by
  induction first with
  | nil => simp [nestingOfMembers]
  | cons member first ih =>
    rw [List.cons_append, nestingOfMembers, nestingOfMembers, ih, Nat.max_assoc]

end Json

/-- Sort keys are objects without containers in them. -/
theorem KeyRequest.nesting_toRecord_le (requests : List KeyRequest) :
    Json.nestingOfItems (requests.map toRecord) ≤ 1 := by
  induction requests with
  | nil => exact Nat.zero_le 1
  | cons request requests ih => exact Nat.max_le.mpr ⟨Nat.le_refl 1, ih⟩

namespace Filter

/-- Every level of a filter opens two containers, one for the node and one for its children. The
nodes on the last level have no children. -/
theorem nesting_toRecord (filter : Filter) : filter.toRecord.nesting = 2 * filter.depth - 1 := by
  induction filter using Filter.induction with
  | node filter ih =>
    have hchildren : Json.nestingOfItems (filter.children.map toRecord) =
        2 * (filter.children.map depth).foldr max 0 - 1 := by
      refine forall_mem_induction (Q := fun children =>
        Json.nestingOfItems (children.map toRecord) =
          2 * (children.map depth).foldr max 0 - 1) rfl ?_ ih
      intro child children hchild hrest
      rw [List.map_cons, Json.nestingOfItems, hchild, hrest, List.map_cons, List.foldr_cons]
      omega
    rw [depth_eq_foldr]
    obtain ⟨field, operator, value, connective, children⟩ := filter
    dsimp only at hchildren ⊢
    have hmembers : ∀ name (text : Option String),
        Json.nestingOfMembers (optionalMember name text) = 0 := by
      intro name text
      cases text <;> rfl
    rw [toRecord, Json.nesting, Json.nestingOfMembers_append, Json.nestingOfMembers_append,
      Json.nestingOfMembers_append, hmembers, hmembers, allToRecords_eq_map]
    cases children with
    | nil => rfl
    | cons child children =>
      have hpositive : 0 < child.depth := by
        rw [depth_eq_foldr]
        omega
      rw [List.isEmpty_cons, if_neg Bool.false_ne_true]
      simp only [Json.nestingOfMembers, Json.nesting]
      rw [hchildren, List.map_cons, List.foldr_cons]
      omega

end Filter

namespace Query

/-- The members of a query are its parts. Those that are missing are left out. -/
theorem ofRecord_toRecord (query : Query) :
    ofRecord query.toRecord = Form.object (form.members
      [query.filter.map fun filter => ofRecord filter.toRecord,
        query.keys.map fun keys => .array (keys.map fun key => ofRecord key.toRecord)]) := by
  obtain ⟨filter, keys⟩ := query
  rw [toRecord, Form.ofRecord_object]
  cases filter <;> cases keys <;> simp [form, Form.members, ofRecord, Function.comp_def]

/-- The filter that is given for the field of a query. It may be missing or `null`. -/
def filterOf? : Option Document → Option (Option Filter)
  | none | some .null => some none
  | some document => (Filter.ofDocument? nestingLimit document).map some

/-- The sort keys that are given for the field of a query. They may be missing or `null`. -/
def keysOf? : Option Document → Option (Option (List KeyRequest))
  | none | some .null => some none
  | some (.array items) => (items.mapM KeyRequest.ofDocument?).map some
  | some _ => none

/-- A query is read from a document part by part. -/
theorem ofDocument?_eq_bind (document : Document) :
    ofDocument? document = (form.fields document).bind fun
      | [filter, keys] =>
        (filterOf? filter).bind fun filter => (keysOf? keys).bind fun keys => some { filter, keys }
      | _ => none := by
  rw [ofDocument?]
  refine bind_congr fun given => ?_
  match given with
  | [] | [_] | _ :: _ :: _ :: _ => rfl
  | [filter, keys] =>
    rcases filter with _ | (_ | _ | _ | _ | _ | _) <;>
      rcases keys with _ | (_ | _ | _ | _ | _ | _) <;> rfl

/-- A query is read from a document if both of its parts are. -/
theorem ofDocument?_eq_some_iff {document : Document} {query : Query} :
    ofDocument? document = some query ↔ ∃ filter keys,
      form.fields document = some [filter, keys] ∧ filterOf? filter = some query.filter ∧
        keysOf? keys = some query.keys := by
  rw [ofDocument?_eq_bind]
  constructor
  · intro hread
    obtain ⟨given, hgiven, hread⟩ := Option.bind_eq_some_iff.mp hread
    split at hread
    · next filter keys =>
      obtain ⟨_, hfilter, hread⟩ := Option.bind_eq_some_iff.mp hread
      obtain ⟨_, hkeys, hread⟩ := Option.bind_eq_some_iff.mp hread
      obtain rfl := Option.some.inj hread
      exact ⟨filter, keys, hgiven, hfilter, hkeys⟩
    · cases hread
  · rintro ⟨filter, keys, hgiven, hfilter, hkeys⟩
    refine Option.bind_eq_some_iff.mpr ⟨_, hgiven, ?_⟩
    exact Option.bind_eq_some_iff.mpr ⟨_, hfilter, Option.bind_eq_some_iff.mpr ⟨_, hkeys, rfl⟩⟩

/-- The parts of a query are those that its value has. -/
theorem fields_ofRecord_toRecord (query : Query) :
    form.fields (ofRecord query.toRecord) = some
      [query.filter.map fun filter => ofRecord filter.toRecord,
        query.keys.map fun keys => .array (keys.map fun key => ofRecord key.toRecord)] := by
  rw [ofRecord_toRecord, Form.fields_object_members (by decide) (by decide) rfl]

/-- What stands for a filter is read as one. -/
theorem filterOf?_ofRecord (filter : Filter) :
    filterOf? (some (ofRecord filter.toRecord)) =
      (Filter.ofDocument? nestingLimit (ofRecord filter.toRecord)).map some := by
  rw [Filter.ofRecord_toRecord]
  rfl

/-- A query is read from its value, if its filter has no more levels than are read. -/
theorem ofDocument?_toRecord {query : Query}
    (hdepth : ∀ filter ∈ query.filter, filter.depth ≤ nestingLimit) :
    ofDocument? (ofRecord query.toRecord) = some query := by
  refine ofDocument?_eq_some_iff.mpr ⟨_, _, fields_ofRecord_toRecord query, ?_, ?_⟩
  · cases hfilter : query.filter with
    | none => rfl
    | some filter =>
      rw [Option.map_some, filterOf?_ofRecord, Filter.ofDocument?_toRecord (hdepth filter hfilter)]
      rfl
  · cases query.keys with
    | none => rfl
    | some keys =>
      have hkeys : (keys.map fun key => ofRecord key.toRecord).mapM KeyRequest.ofDocument? =
          some keys := by
        rw [mapM_eq_some_iff_forall₂, List.forall₂_map_left_iff]
        exact List.forall₂_same.mpr fun key _ => KeyRequest.ofDocument?_toRecord key
      rw [Option.map_some, keysOf?, hkeys]
      rfl

/-- The filter of a query has no more levels than are read, if any query is read from its value. -/
theorem depth_le_of_ofDocument?_toRecord {query other : Query}
    (hread : ofDocument? (ofRecord query.toRecord) = some other) :
    ∀ filter ∈ query.filter, filter.depth ≤ nestingLimit := by
  intro filter hfilter
  obtain ⟨given, _, hgiven, hpart, _⟩ := ofDocument?_eq_some_iff.mp hread
  rw [fields_ofRecord_toRecord, Option.some.injEq, List.cons.injEq] at hgiven
  rw [← hgiven.1, Option.mem_def.mp hfilter, Option.map_some, filterOf?_ofRecord] at hpart
  obtain ⟨_, hread, _⟩ := Option.map_eq_some_iff.mp hpart
  exact Filter.depth_le_of_ofDocument?_toRecord hread

/-- The filter of a query that has been read has no more levels than are read. -/
theorem depth_le_of_ofDocument? {document : Document} {query : Query}
    (hread : ofDocument? document = some query) :
    ∀ filter ∈ query.filter, filter.depth ≤ nestingLimit := by
  intro filter hfilter
  obtain ⟨given, _, _, hpart, _⟩ := ofDocument?_eq_some_iff.mp hread
  rw [Option.mem_def.mp hfilter] at hpart
  unfold filterOf? at hpart
  split at hpart
  · cases hpart
  · cases hpart
  · obtain ⟨_, hread, heq⟩ := Option.map_eq_some_iff.mp hpart
    obtain rfl := Option.some.inj heq
    exact Filter.depth_le_of_ofDocument? hread

/-- No more than 127 containers of a query are open at once exactly if its filter has no more levels
than are read. -/
theorem nesting_toRecord_le_iff (query : Query) :
    query.toRecord.nesting ≤ 127 ↔ ∀ filter ∈ query.filter, filter.depth ≤ nestingLimit := by
  have hkeys : Json.nestingOfMembers (query.keys.map fun keys =>
      ("sort", Json.array (keys.map KeyRequest.toRecord))).toList ≤ 2 := by
    cases query.keys with
    | none => exact Nat.zero_le 2
    | some keys =>
      simpa [Json.nestingOfMembers, Json.nesting] using KeyRequest.nesting_toRecord_le keys
  rw [toRecord, Json.nesting, Json.nestingOfMembers_append, nestingLimit]
  cases query.filter with
  | none =>
    refine iff_of_true ?_ (by simp)
    rw [Option.map_none, Option.toList_none, Json.nestingOfMembers]
    omega
  | some filter =>
    have hfilter : Json.nestingOfMembers
        (Option.map (fun filter => ("filter", Filter.toRecord filter)) (some filter)).toList =
          2 * filter.depth - 1 := by
      simp [Json.nestingOfMembers, Filter.nesting_toRecord]
    rw [hfilter]
    simp only [Option.mem_some_iff, forall_eq']
    omega

/-- A text is read as a query exactly if its document is. -/
theorem ofText_eq_ok_iff {text : String} {query : Query} :
    ofText text = .ok query ↔ (Document.ofText? text).bind ofDocument? = some query := by
  unfold ofText
  split
  · next other hread => simp [hread]
  · next hread => simp [hread]

/-- A text whose document is no query is no request. -/
theorem ofText_eq_error {text : String}
    (hnone : (Document.ofText? text).bind ofDocument? = none) :
    ofText text = .error (.request "not a query") := by
  rw [ofText, hnone]

/-- No more than 127 objects and arrays of a request are open at once, one of them its own and the
others of its filter. The text of a query is read as this query if its filter has at most 63 levels,
which is so exactly if no more than 127 containers of the text are open at once. Otherwise the text
is no request. The filter of any query that is read from a text has at most 63 levels, so the query
is read from its own text too. -/
theorem ofText_toText :
    (∀ document,
      Filter.ofDocument? nestingLimit document = Filter.ofDocumentWithin? (127 - 1) document) ∧
    (∀ query : Query,
      ((∀ filter ∈ query.filter, filter.depth ≤ 63) → ofText query.toText = .ok query) ∧
      ((∃ filter ∈ query.filter, 64 ≤ filter.depth) →
        ∃ fault, ofText query.toText = .error fault ∧ fault.code = "QUERY_INVALID_REQUEST") ∧
      (query.toRecord.nesting ≤ 127 ↔ ∀ filter ∈ query.filter, filter.depth ≤ 63)) ∧
    ∀ text query, ofText text = .ok query →
      (∀ filter ∈ query.filter, filter.depth ≤ 63) ∧ ofText query.toText = .ok query := by
  have hback : ∀ query : Query, (∀ filter ∈ query.filter, filter.depth ≤ 63) →
      ofText query.toText = .ok query := by
    intro query hdepth
    rw [ofText_eq_ok_iff, toText, Document.ofText?_write, Option.bind_some]
    exact ofDocument?_toRecord hdepth
  refine ⟨fun document => (Filter.ofDocumentWithin?_eq nestingLimit document).symm,
    fun query => ⟨hback query, fun hdeep => ?_, nesting_toRecord_le_iff query⟩,
    fun text query hread => ?_⟩
  · obtain ⟨filter, hfilter, hdeep⟩ := hdeep
    refine ⟨_, ofText_eq_error ?_, rfl⟩
    rw [toText, Document.ofText?_write, Option.bind_some, Option.eq_none_iff_forall_ne_some]
    intro other hread
    have hdepth := depth_le_of_ofDocument?_toRecord hread filter hfilter
    rw [nestingLimit] at hdepth
    omega
  · obtain ⟨document, _, hdocument⟩ := Option.bind_eq_some_iff.mp (ofText_eq_ok_iff.mp hread)
    have hdepth := depth_le_of_ofDocument? hdocument
    exact ⟨hdepth, hback query hdepth⟩

/-- A filter of 63 levels, next to an empty list of sort keys, is read back from the text of the
query, and one of 64 levels is not. -/
theorem ofText_toText_tower :
    let tower := Nat.repeat (fun filter => Filter.group "or" [filter]) 62
      (Filter.leaf "a\n" "eq" |>.withValue "")
    let query : Query := { filter := some tower, keys := some [] }
    let deeper : Query := query.withFilter (.group "and" [tower])
    (ofText query.toText = .ok query ∧ ∀ filter ∈ query.filter, filter.depth ≤ 63) ∧
      ∃ fault, ofText deeper.toText = .error fault ∧ fault.code = "QUERY_INVALID_REQUEST" := by
  intro tower query deeper
  have hdepth : tower.depth = 63 := by decide +kernel
  have hquery : ∀ filter ∈ query.filter, filter.depth ≤ 63 := by
    intro filter hfilter
    obtain rfl := Option.mem_some_iff.mp hfilter
    exact hdepth.le
  have hdeeper : ∃ filter ∈ deeper.filter, 64 ≤ filter.depth :=
    ⟨_, rfl, by decide +kernel⟩
  obtain ⟨_, hback, haccepted⟩ := ofText_toText
  have hread := (hback query).1 hquery
  exact ⟨⟨hread, (haccepted _ query hread).1⟩, (hback deeper).2.1 hdeeper⟩

end Query

end RecordQuery
