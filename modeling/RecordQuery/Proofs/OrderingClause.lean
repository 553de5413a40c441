import RecordQuery.Proofs.KeyFaults
import RecordQuery.Proofs.PathText

/-!
# Reading ordering clauses

The ordering clause of a plan tells which keys were requested, if every field has to be a path.
There is no comma and no blank in a path. So the clause is cut at its commas into keys, and a key at
its only blank into a field and a direction, whatever the fields are.
-/

namespace RecordQuery

namespace KeyRequest

/-- The text of a requested key in an ordering clause. -/
def render (request : KeyRequest) : String :=
  request.field ++ " " ++ request.direction

/-- A key is rendered as its request. -/
theorem Gives.render_eq {request : KeyRequest} {key : SortKey} (hgives : request.Gives key) :
    key.render = request.render := by
  rw [SortKey.render, hgives.1, hgives.2, render]

section Separators

variable {request : KeyRequest} (hfault : request.fault? true = none)

include hfault

/-- Neither in the field nor in the direction of a requested key there is a character that is in no
path and in no token. -/
theorem not_mem_of_fault?_eq_none {c : Char} (hpart : Path.isPart c = false)
    (htoken : ∀ token ∈ ["asc", "desc"], c ∉ token.toList) :
    c ∉ request.field.toList ∧ c ∉ request.direction.toList := by
  obtain ⟨_, hpath, hdirection⟩ := fault?_eq_none_iff.mp hfault
  obtain ⟨path, hread⟩ := hpath rfl
  exact ⟨Path.not_mem_of_read? hread hpart, htoken _ hdirection⟩

/-- There is no comma in the text of a requested key. -/
theorem comma_not_mem_render : ',' ∉ request.render.toList := by
  obtain ⟨hfield, hdirection⟩ := not_mem_of_fault?_eq_none hfault (c := ',') rfl (by decide)
  simp [render, hfield, hdirection]

/-- The text of a requested key is cut at its only blank. -/
theorem splitOn_render :
    request.render.toList.splitOn ' ' = [request.field.toList, request.direction.toList] := by
  obtain ⟨hfield, hdirection⟩ := not_mem_of_fault?_eq_none hfault (c := ' ') rfl (by decide)
  have htext : request.render.toList = request.field.toList ++ ' ' :: request.direction.toList := by
    simp [render]
  rw [htext, List.splitOn_append_cons_self_of_not_mem hfield, List.splitOn_eq_singleton hdirection]

end Separators

end KeyRequest

namespace SortPlan

/-- The parts of an ordering clause: what stands between its commas, cut at the blanks. The empty
clause has no parts. -/
def clauseParts (clause : String) : List (List String) :=
  if clause = "" then []
  else (clause.toList.splitOn ',').map fun part => (part.splitOn ' ').map String.ofList

/-- Keys are rendered as their requests. -/
theorem map_render_eq {requests : List KeyRequest} {keys : List SortKey}
    (hgives : List.Forall₂ KeyRequest.Gives requests keys) :
    keys.map SortKey.render = requests.map KeyRequest.render := by
  induction hgives with
  | nil => rfl
  | cons hfirst _ ih => rw [List.map_cons, List.map_cons, hfirst.render_eq, ih]

section Strict

variable {limits : Limits} {requests : List KeyRequest} {plan : SortPlan}
  (hstrict : limits.strictPaths = true) (hbuild : build limits requests = .ok plan)

include hstrict hbuild

/-- Nothing is wrong with any key of a plan, and its field is a path. -/
theorem fault?_eq_none_of_build : ∀ request ∈ requests, request.fault? true = none := by
  intro request hrequest
  have hnone := (firstFault?_eq_none_iff.mp (build_eq_ok_iff.mp hbuild).1).2 request hrequest
  rwa [hstrict] at hnone

/-- The clause of at least one key is cut at its commas into the texts of the requested keys. -/
theorem splitOn_render (hne : requests ≠ []) :
    plan.render.toList.splitOn ',' = requests.map fun request => request.render.toList := by
  have hfault := fault?_eq_none_of_build hstrict hbuild
  have htext : plan.render.toList =
      [','].intercalate (requests.map fun request => request.render.toList) := by
    rw [render, map_render_eq (build_eq_ok_iff.mp hbuild).2, String.toList_intercalate,
      List.map_map]
    rfl
  rw [htext]
  refine List.splitOn_intercalate ',' ?_ (by simpa using hne)
  intro piece hpiece
  obtain ⟨request, hrequest, rfl⟩ := List.mem_map.mp hpiece
  exact KeyRequest.comma_not_mem_render (hfault request hrequest)

/-- Only the clause of no keys is empty. -/
theorem render_eq_empty_iff : plan.render = "" ↔ requests = [] := by
  constructor
  · intro hempty
    by_contra hne
    have hsplit := splitOn_render hstrict hbuild hne
    rw [hempty] at hsplit
    cases requests with
    | nil => exact hne rfl
    | cons request others =>
      have hnothing : [] = request.render.toList := (List.cons.inj hsplit).1
      simp [KeyRequest.render] at hnothing
  · rintro rfl
    have hkeys := List.forall₂_nil_left_iff.mp (build_eq_ok_iff.mp hbuild).2
    rw [render, hkeys]
    rfl

/-- The parts of a clause are the fields and the directions that were requested. -/
theorem clauseParts_render :
    clauseParts plan.render = requests.map fun request => [request.field, request.direction] := by
  have hempty := render_eq_empty_iff hstrict hbuild
  by_cases hne : requests = []
  · rw [clauseParts, if_pos (hempty.mpr hne), hne]
    rfl
  · rw [clauseParts, if_neg (mt hempty.mp hne), splitOn_render hstrict hbuild hne, List.map_map]
    refine List.map_congr_left fun request hrequest => ?_
    have hfault := fault?_eq_none_of_build hstrict hbuild request hrequest
    rw [Function.comp_apply, KeyRequest.splitOn_render hfault]
    simp

/-- The ordering clause of a plan whose fields have to be paths is read back: it is empty only if no
key was requested, its parts are the fields and the directions in the order in which they were
requested, and no other requests are rendered as this clause. -/
theorem clauseParts_render_of_build :
    (plan.render = "" ↔ requests = []) ∧
      clauseParts plan.render =
        requests.map (fun request => [request.field, request.direction]) ∧
      ∀ otherLimits others otherPlan, otherLimits.strictPaths = true →
        build otherLimits others = .ok otherPlan →
          (otherPlan.render = plan.render ↔ others = requests) := by
  have hparts := clauseParts_render hstrict hbuild
  refine ⟨render_eq_empty_iff hstrict hbuild, hparts, ?_⟩
  intro otherLimits others otherPlan hotherStrict hother
  constructor
  · intro hsame
    rw [← hsame, clauseParts_render hotherStrict hother] at hparts
    refine List.map_injective_iff.mpr ?_ hparts
    rintro ⟨field, direction⟩ ⟨otherField, otherDirection⟩ hrequest
    simpa using hrequest
  · rintro rfl
    rw [render, render, map_render_eq (build_eq_ok_iff.mp hbuild).2,
      map_render_eq (build_eq_ok_iff.mp hother).2]

end Strict

/-- The fields may be called like the directions, and a key may be requested twice. -/
theorem clauseParts_render_directions :
    let requests : List KeyRequest := [⟨"desc", "asc"⟩, ⟨"asc[0].b", "desc"⟩, ⟨"desc", "asc"⟩]
    let plan : SortPlan :=
      ⟨[⟨"desc", .ascending⟩, ⟨"asc[0].b", .descending⟩, ⟨"desc", .ascending⟩]⟩
    build {} requests = .ok plan ∧
      clauseParts plan.render =
        [["desc", "asc"], ["asc[0].b", "desc"], ["desc", "asc"]] ∧
      plan.render ≠ "" ∧
      ∀ others otherPlan, build {} others = .ok otherPlan →
        (otherPlan.render = plan.render ↔ others = requests) := by
  intro requests plan
  have hbuild : build {} requests = .ok plan := by decide
  obtain ⟨hempty, hparts, hothers⟩ := clauseParts_render_of_build rfl hbuild
  refine ⟨hbuild, hparts, fun hnone => ?_, fun others otherPlan => hothers {} others otherPlan rfl⟩
  exact absurd (hempty.mp hnone) (List.cons_ne_nil _ _)

end SortPlan

end RecordQuery
