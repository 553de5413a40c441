import Mathlib.Data.List.Nodup
import RecordQuery.Json.Form
import RecordQuery.Proofs.Json.Documents
import RecordQuery.Proofs.Outcome

/-!
# Objects of a form

The members that are given for the fields of a form, each under the first name of its field, are
read back as the values of these fields, if no name belongs to two fields.
-/

namespace RecordQuery

namespace Form

/-- The members that are given for the fields of a form, each under the first name of its field. -/
def members (form : Form) (given : List (Option Document)) : List (String × Document) :=
  (form.zip given).filterMap fun (names, value) => do some (← names.head?, ← value)

/-- An object as a document, all of whose members have names. -/
def object (members : List (String × Document)) : Document :=
  .object (members.map fun (name, value) => (some name, value))

/-- An object is a document whose members are named as in the object. -/
theorem ofRecord_object (members : List (String × Record)) :
    Document.ofRecord (.object members) =
      object (members.map fun (name, value) => (name, .ofRecord value)) := by
  rw [Document.ofRecord, Document.ofMembers_eq_map, object, List.map_map]
  rfl

/-- The fields of an object are picked from its members. -/
theorem fields_object (form : Form) (members : List (String × Document)) :
    form.fields (object members) = form.mapM (pick members) := by
  have hnamed : (members.map fun (name, value) => (some name, value)).mapM
      (fun ((name, value) : Option String × Document) => name.map (·, value)) = some members := by
    rw [mapM_eq_some_iff_forall₂, List.forall₂_map_left_iff]
    exact List.forall₂_same.mpr fun _ _ => rfl
  rw [object, fields, hnamed]
  rfl

/-- An object of which fields are read has only members whose names are texts. -/
theorem exists_object_of_fields {form : Form} {members : List (Option String × Document)}
    {given : List (Option Document)} (hfields : form.fields (.object members) = some given) :
    ∃ named, Json.object members = object named := by
  obtain ⟨named, hnamed, _⟩ := Option.bind_eq_some_iff.mp hfields
  refine ⟨named, congrArg Json.object ?_⟩
  rw [← List.forall₂_eq_eq_eq, List.forall₂_map_right_iff]
  refine (mapM_eq_some_iff_forall₂.mp hnamed).imp fun (name, value) other hmember => ?_
  obtain ⟨name, rfl, rfl⟩ := Option.map_eq_some_iff.mp hmember
  rfl

/-- A member of an object has a text as its name if all members have. -/
theorem exists_object_append {before behind : List (Option String × Document)} {name : String}
    {value : Document} {named : List (String × Document)}
    (hobject : Json.object (before ++ (some name, value) :: behind) = object named) :
    ∃ first last, named = first ++ (name, value) :: last ∧ ∀ other,
      Json.object (before ++ (some name, other) :: behind) =
        object (first ++ (name, other) :: last) := by
  rw [object, Json.object.injEq] at hobject
  obtain ⟨first, rest, rfl, rfl, hrest⟩ := List.map_eq_append_iff.mp hobject.symm
  obtain ⟨own, last, rfl, hown, rfl⟩ := List.map_eq_cons_iff.mp hrest
  obtain ⟨rfl, rfl⟩ : own.1 = name ∧ own.2 = value := by simpa using hown
  exact ⟨first, last, rfl, fun other => by simp [object]⟩

/-- A member under another name is not picked. -/
theorem pick_append_of_forall {before members : List (String × Document)} {names : List String}
    (hbefore : ∀ member ∈ before, member.1 ∉ names) :
    pick (before ++ members) names = pick members names := by
  have hnone : (before.filter fun (name, _) => names.contains name) = [] :=
    List.filter_eq_nil_iff.mpr fun member hmember => by simpa using hbefore member hmember
  rw [pick, List.filter_append, hnone, List.nil_append, pick]

/-- The name of a member that is given for a form is a name of one of its fields. -/
theorem mem_flatten_of_mem_members {form : Form} {given : List (Option Document)}
    {member : String × Document} (hmember : member ∈ form.members given) :
    member.1 ∈ form.flatten := by
  obtain ⟨⟨names, value⟩, hpair, hsome⟩ := List.mem_filterMap.mp hmember
  obtain ⟨name, hname, hsome⟩ := Option.bind_eq_some_iff.mp hsome
  obtain ⟨value, rfl, hsome⟩ := Option.bind_eq_some_iff.mp hsome
  obtain rfl := Option.some.inj hsome
  exact List.mem_flatten.mpr ⟨names, (List.of_mem_zip hpair).1, List.mem_of_head? hname⟩

/-- The members of a form are that of the first field, if one is given, and those of the others. -/
theorem members_cons (name : String) (aliases : List String) (form : Form)
    (value : Option Document) (given : List (Option Document)) :
    members ((name :: aliases) :: form) (value :: given) =
      (value.map (name, ·)).toList ++ form.members given := by
  cases value <;> simp [members]

/-- What is given for the fields of a form is picked from the members, if no name belongs to two
fields and every field has one. -/
theorem forall₂_pick_members {form : Form} {given : List (Option Document)}
    {before : List (String × Document)} (hnodup : form.flatten.Nodup)
    (hnames : ∀ names ∈ form, names ≠ []) (hlength : form.length = given.length)
    (hbefore : ∀ member ∈ before, member.1 ∉ form.flatten) :
    List.Forall₂ (fun names value => pick (before ++ form.members given) names = some value)
      form given := by
  induction form generalizing given before with
  | nil =>
    rw [List.length_nil, eq_comm, List.length_eq_zero_iff] at hlength
    subst hlength
    exact .nil
  | cons names form ih =>
    obtain ⟨value, given, rfl⟩ := List.exists_cons_of_length_eq_add_one hlength.symm
    obtain ⟨hnames, hothers⟩ := List.forall_mem_cons.mp hnames
    obtain ⟨name, aliases, rfl⟩ := List.exists_cons_of_ne_nil hnames
    rw [List.flatten_cons, List.nodup_append'] at hnodup
    obtain ⟨_, hrest, hdisjoint⟩ := hnodup
    simp only [List.flatten_cons, List.mem_append, not_or] at hbefore
    rw [members_cons]
    refine .cons ?_ ?_
    · rw [pick_append_of_forall fun member hmember => (hbefore member hmember).1]
      have hnone : ((members form given).filter fun (other, _) =>
          (name :: aliases).contains other) = [] :=
        List.filter_eq_nil_iff.mpr fun member hmember hcontains =>
          hdisjoint (List.contains_iff_mem.mp hcontains) (mem_flatten_of_mem_members hmember)
      rw [pick, List.filter_append, hnone, List.append_nil]
      cases value <;> simp
    · rw [← List.append_assoc]
      refine ih hrest hothers (Nat.succ.inj hlength) (List.forall_mem_append.mpr ⟨?_, ?_⟩)
      · exact fun member hmember => (hbefore member hmember).2
      · intro member hmember
        obtain ⟨_, _, rfl⟩ := Option.map_eq_some_iff.mp (Option.mem_toList.mp hmember)
        exact fun hname => hdisjoint List.mem_cons_self hname

/-- The object of what is given for the fields of a form has these fields, if no name belongs to two
fields and every field has one. -/
theorem fields_object_members {form : Form} {given : List (Option Document)}
    (hnodup : form.flatten.Nodup) (hnames : ∀ names ∈ form, names ≠ [])
    (hlength : form.length = given.length) :
    form.fields (object (form.members given)) = some given := by
  rw [fields_object, mapM_eq_some_iff_forall₂]
  have hbefore : ∀ member ∈ ([] : List (String × Document)), member.1 ∉ form.flatten :=
    fun _ hmember => absurd hmember List.not_mem_nil
  exact forall₂_pick_members hnodup hnames hlength hbefore

end Form

end RecordQuery
