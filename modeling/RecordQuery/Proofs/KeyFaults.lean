import RecordQuery.Proofs.FirstFault
import RecordQuery.Sort.Plan

/-!
# The first fault of sort keys

What is wrong with requested sort keys, told without building a plan: their number is looked at
first, and then each of them by itself, in order. A plan can also be built in two passes, of which
the first one only looks for faults and the second one only builds. Then the second pass has to look
up each direction once more, but it finds them all.
-/

namespace RecordQuery

namespace KeyRequest

/-- What is wrong with a requested key: with its field, or else with its direction. -/
def fault? (strict : Bool) (request : KeyRequest) : Option Fault :=
  if request.field = "" then some (.field "")
  else if strict ∧ Path.read? request.field.toList = none then some (.field request.field)
  else if request.direction ∈ ["asc", "desc"] then none
  else some (.direction request.direction)

/-- Nothing is wrong with a requested key that has a field, which is a path if it has to be, and a
known direction. -/
theorem fault?_eq_none_iff {strict : Bool} {request : KeyRequest} :
    request.fault? strict = none ↔ request.field ≠ "" ∧
      (strict = true → ∃ path, Path.read? request.field.toList = some path) ∧
      request.direction ∈ ["asc", "desc"] := by
  unfold fault?
  rw [← Option.ne_none_iff_exists']
  split_ifs <;> tauto

/-- A direction is missing only if its token is neither of the two. -/
theorem errorOf?_direction (token : String) :
    errorOf? (Direction.ofToken token) =
      if token ∈ ["asc", "desc"] then none else some (.direction token) := by
  unfold Direction.ofToken
  by_cases hascending : token = "asc"
  · simp [hascending, errorOf?]
  · by_cases hdescending : token = "desc"
    · simp [hdescending, errorOf?]
    · simp [hascending, hdescending, errorOf?]

/-- The direction with a given token is the one that has this token. -/
theorem ofToken_eq_ok_iff {token : String} {direction : Direction} :
    Direction.ofToken token = .ok direction ↔ direction.token = token := by
  unfold Direction.ofToken
  constructor
  · intro hdirection
    split at hdirection
    · next hascending => cases hdirection; exact hascending.symm
    · split at hdirection
      · next hdescending => cases hdirection; exact hdescending.symm
      · cases hdirection
  · rintro rfl
    cases direction <;> rfl

/-- A key is as it was requested: it has the field and the direction of the request. -/
def Gives (request : KeyRequest) (key : SortKey) : Prop :=
  key.field = request.field ∧ key.direction.token = request.direction

/-- The first pass over a requested key: looks for what is wrong with it. -/
def check (strictPaths : Bool) (request : KeyRequest) : Except Fault Unit := do
  if request.field = "" then
    throw (.field "")
  if strictPaths then
    discard (Path.parse request.field)
  discard (Direction.ofToken request.direction)

/-- The second pass over a requested key: looks up its direction once more. -/
def toKeyUnchecked (request : KeyRequest) : Except Fault SortKey := do
  let direction ← Direction.ofToken request.direction
  pure { field := request.field, direction }

/-- The second pass finds nothing but the key that was requested. -/
theorem toKeyUnchecked_eq_ok_iff {request : KeyRequest} {key : SortKey} :
    request.toKeyUnchecked = .ok key ↔ request.Gives key := by
  rw [toKeyUnchecked, bind_eq_ok_iff]
  simp only [ofToken_eq_ok_iff, pure_eq_ok_iff, Gives]
  constructor
  · rintro ⟨direction, hdirection, rfl⟩
    exact ⟨rfl, hdirection⟩
  · rintro ⟨hfield, hdirection⟩
    exact ⟨key.direction, hdirection, by rw [← hfield]⟩

/-- The first pass stops for what is wrong with the request. -/
theorem errorOf?_check (strict : Bool) (request : KeyRequest) :
    errorOf? (request.check strict) = request.fault? strict := by
  have hdirection : errorOf? (discard (Direction.ofToken request.direction)) =
      if request.direction ∈ ["asc", "desc"] then none else some (.direction request.direction) :=
    (errorOf?_map _ _).trans (errorOf?_direction request.direction)
  unfold check fault?
  by_cases hfield : request.field = ""
  · rw [if_pos hfield, if_pos hfield]
    rfl
  · rw [if_neg hfield, if_neg hfield]
    cases strict with
    | false => simpa using hdirection
    | true =>
      have hpath := Filter.errorOf?_path request.field
      cases hread : Path.read? request.field.toList with
      | none =>
        rw [hread, if_pos rfl, errorOf?_eq_some_iff] at hpath
        simp only [hpath]
        rfl
      | some path =>
        rw [hread, if_neg (by simp), errorOf?_eq_none_iff] at hpath
        obtain ⟨path, hpath⟩ := hpath
        rw [hpath]
        exact hdirection.trans (by simp)

/-- A requested key goes through both passes, one after the other. -/
theorem toKey_eq_check_bind (strict : Bool) (request : KeyRequest) :
    request.toKey strict = (request.check strict >>= fun _ => request.toKeyUnchecked) := by
  unfold toKey check toKeyUnchecked
  by_cases hfield : request.field = ""
  · rw [if_pos hfield, if_pos hfield]
    rfl
  · rw [if_neg hfield, if_neg hfield]
    cases strict <;> cases Path.parse request.field <;>
      cases Direction.ofToken request.direction <;> rfl

/-- The second pass does not fail where the first one has not. -/
theorem exists_toKeyUnchecked {strict : Bool} {request : KeyRequest}
    (hfault : request.fault? strict = none) : ∃ key, request.toKeyUnchecked = .ok key := by
  obtain ⟨_, _, hdirection⟩ := fault?_eq_none_iff.mp hfault
  obtain ⟨direction, hfound⟩ :=
    errorOf?_eq_none_iff.mp ((errorOf?_direction request.direction).trans (if_pos hdirection))
  have hgives : request.Gives ⟨request.field, direction⟩ := ⟨rfl, ofToken_eq_ok_iff.mp hfound⟩
  exact ⟨_, toKeyUnchecked_eq_ok_iff.mpr hgives⟩

/-- A key is missing for what is wrong with the request. -/
theorem errorOf?_toKey (strict : Bool) (request : KeyRequest) :
    errorOf? (request.toKey strict) = request.fault? strict := by
  rw [toKey_eq_check_bind, ← errorOf?_check]
  refine errorOf?_bind_of_ok fun _ hcheck => errorOf?_eq_none_iff.mpr ?_
  exact exists_toKeyUnchecked ((errorOf?_check strict request).symm.trans (by rw [hcheck]; rfl))

/-- A key is as it was requested, if nothing is wrong with the request. -/
theorem toKey_eq_ok_iff {strict : Bool} {request : KeyRequest} {key : SortKey} :
    request.toKey strict = .ok key ↔ request.fault? strict = none ∧ request.Gives key := by
  rw [toKey_eq_check_bind, bind_eq_ok_iff, ← errorOf?_check, errorOf?_eq_none_iff]
  simp only [toKeyUnchecked_eq_ok_iff, exists_and_right]

end KeyRequest

namespace SortPlan

/-- The first thing wrong with requested keys under limits. -/
def firstFault? (limits : Limits) (requests : List KeyRequest) : Option Fault :=
  if limits.maxKeys < requests.length then
    some (.tooManyKeys requests.length limits.maxKeys)
  else requests.findSome? (KeyRequest.fault? limits.strictPaths)

/-- Nothing is wrong with requested keys that are no more than the limit, if nothing is wrong with
any of them. -/
theorem firstFault?_eq_none_iff {limits : Limits} {requests : List KeyRequest} :
    firstFault? limits requests = none ↔ requests.length ≤ limits.maxKeys ∧
      ∀ request ∈ requests, request.fault? limits.strictPaths = none := by
  unfold firstFault?
  split
  · next hlong => simp [Nat.not_le_of_lt hlong]
  · next hlong => simp [Nat.le_of_not_lt hlong]

/-- A plan is missing for the first fault of its keys. -/
theorem errorOf?_build (limits : Limits) (requests : List KeyRequest) :
    errorOf? (build limits requests) = firstFault? limits requests := by
  unfold build firstFault?
  split
  · rfl
  · rw [errorOf?_map, errorOf?_mapM]
    simp only [KeyRequest.errorOf?_toKey]

/-- A plan has one key for each request, in the order of the requests, if nothing is wrong with
them. -/
theorem build_eq_ok_iff {limits : Limits} {requests : List KeyRequest} {plan : SortPlan} :
    build limits requests = .ok plan ↔ firstFault? limits requests = none ∧
      List.Forall₂ KeyRequest.Gives requests plan.keys := by
  unfold build firstFault?
  split
  · simp
  · rw [map_eq_ok_iff, List.findSome?_eq_none_iff, ← List.forall₂_and_left]
    simp only [mapM_eq_ok_iff_forall₂, KeyRequest.toKey_eq_ok_iff]
    constructor
    · rintro ⟨keys, hkeys, rfl⟩
      exact hkeys
    · intro hkeys
      exact ⟨plan.keys, hkeys, rfl⟩

/-! ## Two passes -/

/-- The first pass: looks for what is wrong with requested keys. -/
def check (limits : Limits) (requests : List KeyRequest) : Except Fault Unit :=
  if limits.maxKeys < requests.length then
    .error (.tooManyKeys requests.length limits.maxKeys)
  else forM requests (KeyRequest.check limits.strictPaths)

/-- The second pass: puts the keys together. -/
def buildUnchecked (requests : List KeyRequest) : Except Fault SortPlan :=
  (requests.mapM KeyRequest.toKeyUnchecked).map SortPlan.mk

/-- Builds a plan in two passes. -/
def buildInPasses (limits : Limits) (requests : List KeyRequest) : Except Fault SortPlan := do
  check limits requests
  buildUnchecked requests

/-- The first pass stops for the first fault of the keys. -/
theorem errorOf?_check (limits : Limits) (requests : List KeyRequest) :
    errorOf? (check limits requests) = firstFault? limits requests := by
  unfold check firstFault?
  split
  · rfl
  · rw [errorOf?_forM]
    simp only [KeyRequest.errorOf?_check]

/-- The second pass builds the plan of the requests. -/
theorem buildUnchecked_of_build {limits : Limits} {requests : List KeyRequest} {plan : SortPlan}
    (hbuild : build limits requests = .ok plan) : buildUnchecked requests = .ok plan := by
  have hkeys := (build_eq_ok_iff.mp hbuild).2
  refine map_eq_ok_iff.mpr ⟨plan.keys, mapM_eq_ok_iff_forall₂.mpr ?_, rfl⟩
  simpa only [KeyRequest.toKeyUnchecked_eq_ok_iff] using hkeys

/-- In two passes the same plan is built, and the same fault reported. -/
theorem buildInPasses_eq_build (limits : Limits) (requests : List KeyRequest) :
    buildInPasses limits requests = build limits requests := by
  have hcheck := errorOf?_check limits requests
  have hbuild := errorOf?_build limits requests
  cases hfault : firstFault? limits requests with
  | some fault =>
    rw [hfault, errorOf?_eq_some_iff] at hcheck hbuild
    rw [buildInPasses, hcheck, hbuild]
    rfl
  | none =>
    rw [hfault, errorOf?_eq_none_iff] at hcheck hbuild
    obtain ⟨_, hcheck⟩ := hcheck
    obtain ⟨plan, hbuild⟩ := hbuild
    rw [buildInPasses, hcheck, hbuild]
    exact buildUnchecked_of_build hbuild

/-- A plan is rejected with the first fault of its keys. If there is none, it is built with exactly
one key for each request, in order, which has the field and the direction of the request. Building
in two passes comes to the same, and it is rejected in the first pass or not at all. -/
theorem build_reports_first (limits : Limits) (requests : List KeyRequest) :
    (∀ fault, build limits requests = .error fault ↔ firstFault? limits requests = some fault) ∧
      ((∃ plan, build limits requests = .ok plan) ↔ firstFault? limits requests = none) ∧
      (∀ plan, build limits requests = .ok plan ↔ firstFault? limits requests = none ∧
        List.Forall₂ KeyRequest.Gives requests plan.keys) ∧
      buildInPasses limits requests = build limits requests ∧
      ∀ fault, buildInPasses limits requests = .error fault ↔
        check limits requests = .error fault := by
  refine ⟨fun fault => ?_, ?_, fun plan => build_eq_ok_iff, buildInPasses_eq_build limits requests,
    fun fault => ?_⟩
  · rw [← errorOf?_eq_some_iff, errorOf?_build]
  · rw [← errorOf?_eq_none_iff, errorOf?_build]
  · rw [buildInPasses_eq_build, ← errorOf?_eq_some_iff, ← errorOf?_eq_some_iff, errorOf?_build,
      errorOf?_check]

/-- The number of keys comes before all of them, and a direction of the first key before the field
of the second one. -/
example :
    let requests : List KeyRequest := [⟨"age", "DESC"⟩, ⟨"", "asc"⟩]
    build {} requests = .error (.direction "DESC") ∧
      build { maxKeys := 1 } requests = .error (.tooManyKeys 2 1) ∧
      build {} requests.reverse = .error (.field "") ∧
      build { strictPaths := false } [⟨"age)", "asc"⟩] = .ok ⟨[⟨"age)", .ascending⟩]⟩ := by decide

end SortPlan

end RecordQuery
