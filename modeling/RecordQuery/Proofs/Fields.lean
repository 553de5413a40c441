import RecordQuery.Proofs.Requests

/-!
# Fields of a request

The structures of a request are the query, its filters and its sort keys. Each is read from the
values of its fields alone, where a field that is not given has a value that means the same: `null`,
the empty text or the empty array.
-/

namespace RecordQuery

/-- A field of a structure: its names, and the value that means the same as none. -/
structure Field where
  names : List String
  blank : Document

/-- A structure of a request. -/
inductive Part where
  | query
  | filter
  | key

namespace Part

/-- The names of each field of a structure. -/
def form : Part → Form
  | query => Query.form
  | filter => Filter.form
  | key => KeyRequest.form

/-- For each field of a structure the value that means the same as none. -/
def blanks : Part → List Document
  | query => [.null, .null]
  | filter => [.ofString "", .ofString "", .null, .null, .array []]
  | key => [.ofString "", .ofString ""]

/-- The fields of a structure. -/
def fields (part : Part) : List Field :=
  part.form.zipWith Field.mk part.blanks

/-- The values of the fields of a structure in a document. -/
def values (part : Part) (document : Document) : Option (List Document) :=
  (part.form.fields document).map fun given => given.zipWith Option.getD part.blanks

/-- Every field has a value that means the same as none. -/
theorem length_blanks (part : Part) : part.blanks.length = part.form.length := by
  cases part <;> rfl

/-- No name belongs to two fields. -/
theorem nodup_fields (part : Part) : (part.fields.flatMap Field.names).Nodup := by
  cases part <;> decide

end Part

namespace Form

variable {form : Form} {members : List (String × Document)} {names : List String}

/-- The values of the members that have one of the names of a field. -/
def given (members : List (String × Document)) (names : List String) : List Document :=
  (members.filter fun member => names.contains member.1).map (·.2)

/-- A member is picked if it is the only one of its field. -/
theorem pick_eq_some_iff {value : Option Document} :
    pick members names = some value ↔ given members names = value.toList := by
  rw [pick]
  split
  · next hnone =>
    have hgiven : given members names = [] := congrArg (List.map Prod.snd) hnone
    cases value <;> simp [hgiven]
  · next own hone =>
    have hgiven : given members names = [own] := congrArg (List.map Prod.snd) hone
    cases value <;> simp [hgiven]
  · next hnone hone =>
    refine iff_of_false (by simp) fun hgiven => ?_
    cases value with
    | none => exact hnone (List.map_eq_nil_iff.mp hgiven)
    | some value =>
      obtain ⟨member, hmember, _⟩ := List.map_eq_singleton_iff.mp hgiven
      exact hone member.1 member.2 hmember

/-- The members of an object give a value for a field: there is one of this value, or none, and the
value means the same as that. -/
def Gives (members : List (String × Document)) (field : Field) (value : Document) : Prop :=
  given members field.names = [value] ∨ given members field.names = [] ∧ value = field.blank

/-- What is picked for a field, or what means the same as none, is the value that is given. -/
theorem map_pick_eq_some_iff {field : Field} {value : Document} :
    (pick members field.names).map (·.getD field.blank) = some value ↔
      Gives members field value := by
  rw [Option.map_eq_some_iff, Gives]
  constructor
  · rintro ⟨picked, hpick, rfl⟩
    rw [pick_eq_some_iff] at hpick
    cases picked with
    | none => exact .inr ⟨hpick, rfl⟩
    | some value => exact .inl hpick
  · rintro (hgiven | ⟨hgiven, rfl⟩)
    · exact ⟨some value, pick_eq_some_iff.mpr hgiven, rfl⟩
    · exact ⟨none, pick_eq_some_iff.mpr hgiven, rfl⟩

/-- A structure has a value for each of its fields. -/
theorem length_fields {document : Document} {given : List (Option Document)}
    (hfields : form.fields document = some given) : given.length = form.length := by
  unfold fields at hfields
  split at hfields
  · obtain ⟨_, _, hpicked⟩ := Option.bind_eq_some_iff.mp hfields
    exact (mapM_eq_some_iff_forall₂.mp hpicked).length_eq.symm
  · split at hfields
    · obtain rfl := Option.some.inj hfields
      simp only [List.length_append, List.length_map, List.length_replicate]
      omega
    · cases hfields
  · cases hfields

end Form

/-! ## Values -/

namespace Form

variable {form : Form} {blanks values : List Document}

/-- The values of the fields of a form in a document, where those that are not given have values of
their own. -/
def valuesOr (form : Form) (blanks : List Document) (document : Document) :
    Option (List Document) :=
  (form.fields document).map fun given => given.zipWith Option.getD blanks

/-- What is picked for each field, or what means the same as none, is found field by field. -/
theorem map_zipWith_mapM {members : List (String × Document)}
    (hlength : blanks.length = form.length) :
    (form.mapM (pick members)).map (fun given => given.zipWith Option.getD blanks) =
      (form.zipWith Field.mk blanks).mapM fun field =>
        (pick members field.names).map (·.getD field.blank) := by
  induction form generalizing blanks with
  | nil => rfl
  | cons names form ih =>
    obtain ⟨blank, blanks, rfl⟩ := List.exists_cons_of_length_eq_add_one hlength
    have hrest := ih (Nat.succ.inj hlength)
    rw [List.zipWith_cons_cons, List.mapM_cons, List.mapM_cons, ← hrest]
    dsimp only
    cases pick members names with
    | none => rfl
    | some value => cases form.mapM (pick members) <;> rfl

/-- The values of the fields of an object are those that its members give. -/
theorem valuesOr_object_iff {members : List (String × Document)}
    (hlength : blanks.length = form.length) :
    form.valuesOr blanks (object members) = some values ↔
      List.Forall₂ (Gives members) (form.zipWith Field.mk blanks) values := by
  rw [valuesOr, fields_object, map_zipWith_mapM hlength, mapM_eq_some_iff_forall₂]
  simp only [map_pick_eq_some_iff]

/-- Items behind which nothing is given are followed by blanks. -/
theorem zipWith_getD_append {items blanks : List Document} {missing : Nat}
    (hlength : items.length + missing = blanks.length) :
    (items.map some ++ List.replicate missing none).zipWith Option.getD blanks =
      items ++ blanks.drop items.length := by
  induction items generalizing blanks with
  | nil =>
    rw [List.length_nil, Nat.zero_add] at hlength
    subst hlength
    induction blanks with
    | nil => rfl
    | cons blank blanks ih => exact congrArg (blank :: ·) ih
  | cons item items ih =>
    cases blanks with
    | nil => simp at hlength
    | cons blank blanks =>
      have hrest : items.length + missing = blanks.length := by
        simp only [List.length_cons] at hlength
        omega
      rw [List.map_cons, List.cons_append, List.zipWith_cons_cons, ih hrest]
      rfl

/-- The values of the fields of an array are its items, for the first fields. -/
theorem valuesOr_array_iff {items : List Document} (hlength : blanks.length = form.length) :
    form.valuesOr blanks (.array items) = some values ↔
      items.length ≤ form.length ∧ values = items ++ blanks.drop items.length := by
  rw [valuesOr, fields]
  split
  · next hle =>
    rw [Option.map_some, zipWith_getD_append (by omega), Option.some.injEq, eq_comm]
    exact (and_iff_right hle).symm
  · next hlong => simp [hlong]

end Form

namespace Part

variable {part : Part} {values : List Document}

/-- The members of an object give the values of a structure, one for each field. -/
theorem values_object_iff {members : List (String × Document)} :
    part.values (Form.object members) = some values ↔
      List.Forall₂ (Form.Gives members) part.fields values :=
  Form.valuesOr_object_iff part.length_blanks

/-- The items of an array are the values of the first fields of a structure. -/
theorem values_array_iff {items : List Document} :
    part.values (.array items) = some values ↔
      items.length ≤ part.form.length ∧ values = items ++ part.blanks.drop items.length :=
  Form.valuesOr_array_iff part.length_blanks

end Part

/-! ## Members -/

namespace Form

variable {members others before behind : List (String × Document)} {names : List String}
  {name : String} {value : Document} {field : Field}

/-- What is given in two parts of an object is given in the object. -/
theorem given_append :
    given (before ++ behind) names = given before names ++ given behind names := by
  simp [given]

/-- Nothing is given for a field that has no member. -/
theorem given_eq_nil (habsent : ∀ member ∈ members, member.1 ∉ names) :
    given members names = [] := by
  rw [given, List.filter_eq_nil_iff.mpr, List.map_nil]
  intro member hmember
  simpa using habsent member hmember

/-- A member of a field is given for it, between those before and behind it. -/
theorem given_of_mem (hname : name ∈ names) :
    given (before ++ (name, value) :: behind) names =
      given before names ++ value :: given behind names := by
  simp [given, hname]

/-- A member of another field is not given for a field. -/
theorem given_of_not_mem (hname : name ∉ names) :
    given (before ++ (name, value) :: behind) names = given (before ++ behind) names := by
  simp [given, hname]

/-- The order of the members does not matter for what they give. -/
theorem Gives.of_perm (hperm : members.Perm others) (hgives : Gives members field value) :
    Gives others field value := by
  have hgiven : (given members field.names).Perm (given others field.names) :=
    (hperm.filter _).map _
  rcases hgives with hone | ⟨hnone, hblank⟩
  · rw [hone] at hgiven
    exact .inl (List.perm_singleton.mp hgiven.symm)
  · rw [hnone] at hgiven
    exact .inr ⟨List.nil_perm.mp hgiven, hblank⟩

/-- If a member of a field gives the value, it is the only one of this field. -/
theorem Gives.alone {own : Document} (hgives : Gives (before ++ (name, own) :: behind) field value)
    (hname : name ∈ field.names) :
    value = own ∧ given before field.names = [] ∧ given behind field.names = [] := by
  rw [Gives, given_of_mem hname] at hgives
  rcases hgives with hone | ⟨hnone, _⟩
  · rcases List.append_eq_singleton_iff.mp hone with ⟨hbefore, hrest⟩ | ⟨_, hrest⟩
    · obtain ⟨hown, hbehind⟩ := List.cons.inj hrest
      exact ⟨hown.symm, hbefore, hbehind⟩
    · cases hrest
  · simp at hnone

/-- A member that is the only one of its field gives its value. -/
theorem gives_of_mem (hname : name ∈ field.names) (hbefore : given before field.names = [])
    (hbehind : given behind field.names = []) :
    Gives (before ++ (name, value) :: behind) field value := by
  rw [Gives, given_of_mem hname, hbefore, hbehind]
  exact .inl rfl

/-- A member of another field makes no difference to what is given for a field. -/
theorem gives_iff_of_not_mem {own : Document} (hname : name ∉ field.names) :
    Gives (before ++ (name, own) :: behind) field value ↔ Gives (before ++ behind) field value := by
  rw [Gives, given_of_not_mem hname, Gives]

end Form

namespace Part

variable {part : Part} {values : List Document} {members others : List (String × Document)}

/-- Two fields that have a name in common stand at the same position. -/
theorem index_eq_of_mem {i j : Nat} {field other : Field} {name : String}
    (hfield : part.fields[i]? = some field) (hother : part.fields[j]? = some other)
    (hname : name ∈ field.names) (hname' : name ∈ other.names) : i = j := by
  have hdisjoint := (List.nodup_flatMap.mp part.nodup_fields).2
  rw [List.pairwise_iff_getElem] at hdisjoint
  obtain ⟨hi, rfl⟩ := List.getElem?_eq_some_iff.mp hfield
  obtain ⟨hj, rfl⟩ := List.getElem?_eq_some_iff.mp hother
  rcases Nat.lt_trichotomy i j with hlt | heq | hlt
  · exact absurd hname' (hdisjoint i j hi hj hlt hname)
  · exact heq
  · exact absurd hname (hdisjoint j i hj hi hlt hname')

/-- Two fields that have a name in common are the same. -/
theorem eq_of_mem {field other : Field} {name : String}
    (hfield : field ∈ part.fields) (hother : other ∈ part.fields)
    (hname : name ∈ field.names) (hname' : name ∈ other.names) : field = other := by
  obtain ⟨i, hi⟩ := List.mem_iff_getElem?.mp hfield
  obtain ⟨j, hj⟩ := List.mem_iff_getElem?.mp hother
  rw [index_eq_of_mem hi hj hname hname', hj] at hi
  exact (Option.some.inj hi).symm

/-- Objects whose members give the same for every field have the same values. -/
theorem values_object_of_gives (hvalues : part.values (Form.object members) = some values)
    (hgives : ∀ field ∈ part.fields, ∀ value,
      Form.Gives members field value → Form.Gives others field value) :
    part.values (Form.object others) = some values := by
  rw [values_object_iff] at hvalues ⊢
  have hfields := (List.forall₂_and_left _ _).mpr ⟨fun field hfield => hfield, hvalues⟩
  exact hfields.imp fun field value ⟨hfield, hvalue⟩ => hgives field hfield value hvalue

/-- There is one value for every field. -/
theorem length_of_values (hvalues : part.values (Form.object members) = some values) :
    values.length = part.form.length := by
  rw [← (values_object_iff.mp hvalues).length_eq, fields, List.length_zipWith, part.length_blanks,
    Nat.min_self]

/-- For each field of a structure the value of its member, or the one that means the same as none if
there is no member of this field. -/
def listed (part : Part) (members : List (String × Document)) : List Document :=
  part.fields.map fun field => (Form.given members field.names).headD field.blank

/-- The values that members give are those that are listed of them. -/
theorem eq_listed (hvalues : part.values (Form.object members) = some values) :
    values = part.listed members := by
  rw [values_object_iff] at hvalues
  rw [listed, ← List.forall₂_eq_eq_eq, List.forall₂_map_right_iff]
  refine hvalues.flip.imp fun value field hgives => ?_
  rcases hgives with hone | ⟨hnone, hblank⟩
  · rw [hone, List.headD_cons]
  · rw [hnone, hblank, List.headD_nil]

end Part

/-! ## Readings -/

/-- A sort key is read from a document if both of its fields are. -/
theorem KeyRequest.ofDocument?_eq_some_iff {document : Document} {request : KeyRequest} :
    ofDocument? document = some request ↔ ∃ field direction,
      form.fields document = some [field, direction] ∧ Form.text field = some request.field ∧
        Form.text direction = some request.direction := by
  rw [ofDocument?]
  constructor
  · intro hread
    obtain ⟨given, hgiven, hread⟩ := Option.bind_eq_some_iff.mp hread
    split at hread
    · next field direction =>
      obtain ⟨_, hfield, hread⟩ := Option.bind_eq_some_iff.mp hread
      obtain ⟨_, hdirection, hread⟩ := Option.bind_eq_some_iff.mp hread
      obtain rfl := Option.some.inj hread
      exact ⟨field, direction, hgiven, hfield, hdirection⟩
    · cases hread
  · rintro ⟨field, direction, hgiven, hfield, hdirection⟩
    refine Option.bind_eq_some_iff.mpr ⟨_, hgiven, ?_⟩
    exact Option.bind_eq_some_iff.mpr ⟨_, hfield, Option.bind_eq_some_iff.mpr ⟨_, hdirection, rfl⟩⟩

/-- What a document of a request is read as. A filter is read with a number of levels. -/
inductive Reading where
  | query (request : Query)
  | filter (levels : Nat) (request : Filter)
  | key (request : KeyRequest)

namespace Reading

/-- The structure that is read. -/
def part : Reading → Part
  | query _ => .query
  | filter _ _ => .filter
  | key _ => .key

/-- Whether a document is read as this. -/
def Of : Reading → Document → Prop
  | query request, document => Query.ofDocument? document = some request
  | filter levels request, document => Filter.ofDocument? levels document = some request
  | key request, document => KeyRequest.ofDocument? document = some request

/-- Whether values of the fields are read as this. -/
def OfValues : Reading → List Document → Prop
  | query request, [root, keys] =>
    Query.filterOf? (some root) = some request.filter ∧
      Query.keysOf? (some keys) = some request.keys
  | filter (levels + 1) request, [field, operator, value, connective, children] =>
    Form.text (some field) = some request.field ∧
      Form.text (some operator) = some request.operator ∧
      Form.optionalText (some value) = some request.value ∧
      Form.optionalText (some connective) = some request.connective ∧
      ∃ items, Form.items (some children) = some items ∧
        List.Forall₂ (fun item child => Filter.ofDocument? levels item = some child) items
          request.children
  | key request, [field, direction] =>
    Form.text (some field) = some request.field ∧
      Form.text (some direction) = some request.direction
  | _, _ => False

/-- The empty text means the same as no text. -/
theorem text_getD (value : Option Document) :
    Form.text (some (value.getD (.ofString ""))) = Form.text value := by
  cases value <;> rfl

/-- `null` means the same as no text, where there may be none. -/
theorem optionalText_getD (value : Option Document) :
    Form.optionalText (some (value.getD .null)) = Form.optionalText value := by
  cases value <;> rfl

/-- The empty array means the same as no items. -/
theorem items_getD (value : Option Document) :
    Form.items (some (value.getD (.array []))) = Form.items value := by
  cases value <;> rfl

/-- `null` means the same as no filter. -/
theorem filterOf?_getD (value : Option Document) :
    Query.filterOf? (some (value.getD .null)) = Query.filterOf? value := by
  cases value <;> rfl

/-- `null` means the same as no sort keys. -/
theorem keysOf?_getD (value : Option Document) :
    Query.keysOf? (some (value.getD .null)) = Query.keysOf? value := by
  cases value <;> rfl

/-- A document is read from the values of its fields. -/
theorem of_iff {reading : Reading} {document : Document} :
    reading.Of document ↔
      ∃ values, reading.part.values document = some values ∧ reading.OfValues values := by
  simp only [Part.values, Option.map_eq_some_iff, exists_exists_and_eq_and]
  cases reading with
  | query request =>
    rw [Of, Query.ofDocument?_eq_some_iff]
    constructor
    · rintro ⟨root, keys, hgiven, hroot, hkeys⟩
      exact ⟨_, hgiven, (filterOf?_getD root).trans hroot, (keysOf?_getD keys).trans hkeys⟩
    · rintro ⟨given, hgiven, hvalues⟩
      match given, Form.length_fields hgiven with
      | [root, keys], _ =>
        obtain ⟨hroot, hkeys⟩ := hvalues
        exact ⟨root, keys, hgiven, (filterOf?_getD root).symm.trans hroot,
          (keysOf?_getD keys).symm.trans hkeys⟩
  | filter levels request =>
    cases levels with
    | zero =>
      constructor
      · intro hread
        cases hread
      · rintro ⟨given, hgiven, hvalues⟩
        match given, Form.length_fields hgiven with
        | [_, _, _, _, _], _ => cases hvalues
    | succ levels =>
      rw [Of, Filter.ofDocument?_eq_some_iff]
      constructor
      · rintro ⟨field, operator, value, connective, children, items, hgiven, hfield, hoperator,
          hvalue, hconnective, hitems, hchildren⟩
        exact ⟨_, hgiven, (text_getD field).trans hfield, (text_getD operator).trans hoperator,
          (optionalText_getD value).trans hvalue, (optionalText_getD connective).trans hconnective,
          items, (items_getD children).trans hitems, hchildren⟩
      · rintro ⟨given, hgiven, hvalues⟩
        match given, Form.length_fields hgiven with
        | [field, operator, value, connective, children], _ =>
          obtain ⟨hfield, hoperator, hvalue, hconnective, items, hitems, hchildren⟩ := hvalues
          exact ⟨field, operator, value, connective, children, items, hgiven,
            (text_getD field).symm.trans hfield, (text_getD operator).symm.trans hoperator,
            (optionalText_getD value).symm.trans hvalue,
            (optionalText_getD connective).symm.trans hconnective,
            (items_getD children).symm.trans hitems, hchildren⟩
  | key request =>
    rw [Of, KeyRequest.ofDocument?_eq_some_iff]
    constructor
    · rintro ⟨field, direction, hgiven, hfield, hdirection⟩
      exact ⟨_, hgiven, (text_getD field).trans hfield, (text_getD direction).trans hdirection⟩
    · rintro ⟨given, hgiven, hvalues⟩
      match given, Form.length_fields hgiven with
      | [field, direction], _ =>
        obtain ⟨hfield, hdirection⟩ := hvalues
        exact ⟨field, direction, hgiven, (text_getD field).symm.trans hfield,
          (text_getD direction).symm.trans hdirection⟩

end Reading

end RecordQuery
