import Mathlib.Data.List.Forall2
import Mathlib.Tactic.Common
import RecordQuery.Failure

/-!
# Outcomes

Reading a computation that may fail backwards: what its steps have done, given what it ended with,
and the error that the first failing step leaves.
-/

namespace RecordQuery

variable {ε α β : Type}

/-- Two steps succeed if the first one does, and the second one with its result. -/
theorem bind_eq_ok_iff {x : Except ε α} {f : α → Except ε β} {b : β} :
    x >>= f = .ok b ↔ ∃ a, x = .ok a ∧ f a = .ok b := by
  cases x <;> simp [bind, Except.bind]

/-- A result that is only changed afterwards was there before. -/
theorem map_eq_ok_iff {x : Except ε α} {f : α → β} {b : β} :
    x.map f = .ok b ↔ ∃ a, x = .ok a ∧ f a = b := by
  cases x <;> simp [Except.map]

/-- Returning a value succeeds with this value only. -/
theorem pure_eq_ok_iff {a b : α} : (pure a : Except ε α) = .ok b ↔ a = b := by
  simp [pure, Except.pure]

/-- The error with which a computation ends, if it fails. -/
def errorOf? : Except ε α → Option ε
  | .ok _ => none
  | .error e => some e

theorem errorOf?_eq_some_iff {x : Except ε α} {e : ε} : errorOf? x = some e ↔ x = .error e := by
  cases x <;> simp [errorOf?]

theorem errorOf?_eq_none_iff {x : Except ε α} : errorOf? x = none ↔ ∃ a, x = .ok a := by
  cases x <;> simp [errorOf?]

/-- A result that is only changed afterwards is missing for the same error. -/
theorem errorOf?_map (x : Except ε α) (f : α → β) : errorOf? (x.map f) = errorOf? x := by
  cases x <;> rfl

/-- Two steps fail with the error of the first one, and otherwise with that of the second one, if
this does not depend on the result of the first. -/
theorem errorOf?_bind {x : Except ε α} {f : α → Except ε β} {e : Option ε}
    (hsecond : ∀ a, x = .ok a → errorOf? (f a) = e) :
    errorOf? (x >>= f) = (errorOf? x).or e := by
  cases x with
  | error first => rfl
  | ok a => exact hsecond a rfl

/-- A second step that never fails adds no error. -/
theorem errorOf?_bind_of_ok {x : Except ε α} {f : α → Except ε β}
    (hsecond : ∀ a, x = .ok a → errorOf? (f a) = none) : errorOf? (x >>= f) = errorOf? x := by
  rw [errorOf?_bind hsecond, Option.or_none]

/-- A traversal fails with the error of the first step that fails. -/
theorem errorOf?_mapM (f : α → Except ε β) (items : List α) :
    errorOf? (items.mapM f) = items.findSome? fun a => errorOf? (f a) := by
  induction items with
  | nil => rfl
  | cons a items ih =>
    have hrest : ∀ b, f a = .ok b →
        errorOf? (items.mapM f >>= fun bs => pure (b :: bs)) =
          items.findSome? fun a => errorOf? (f a) := by
      intro b _
      rw [errorOf?_bind_of_ok fun _ _ => rfl, ih]
    rw [List.mapM_cons, errorOf?_bind hrest, List.findSome?_cons]
    cases errorOf? (f a) <;> rfl

/-- A traversal without results fails with the error of the first step that fails. -/
theorem errorOf?_forM (f : α → Except ε PUnit) (items : List α) :
    errorOf? (forM items f) = items.findSome? fun a => errorOf? (f a) := by
  induction items with
  | nil => rfl
  | cons a items ih =>
    rw [List.forM_cons, errorOf?_bind fun _ _ => ih, List.findSome?_cons]
    cases errorOf? (f a) <;> rfl

/-- A traversal succeeds with the results of its steps, one after the other. -/
theorem mapM_eq_ok_iff_forall₂ {f : α → Except ε β} {items : List α} {results : List β} :
    items.mapM f = .ok results ↔ List.Forall₂ (fun a b => f a = .ok b) items results := by
  induction items generalizing results with
  | nil =>
    rw [List.mapM_nil, pure_eq_ok_iff, List.forall₂_nil_left_iff]
    exact eq_comm
  | cons a items ih =>
    rw [List.mapM_cons, bind_eq_ok_iff, List.forall₂_cons_left_iff]
    constructor
    · rintro ⟨b, hfirst, hrest⟩
      obtain ⟨bs, hothers, hresults⟩ := bind_eq_ok_iff.mp hrest
      exact ⟨b, bs, hfirst, ih.mp hothers, (pure_eq_ok_iff.mp hresults).symm⟩
    · rintro ⟨b, bs, hfirst, hrest, rfl⟩
      exact ⟨b, hfirst, bind_eq_ok_iff.mpr ⟨bs, ih.mpr hrest, rfl⟩⟩

/-- Some item has a property exactly if some result of a traversal has the property that it gives to
its result. -/
theorem exists_mem_iff_of_mapM {f : α → Except ε β} {p : α → Prop} {q : β → Prop} {items : List α}
    {results : List β} (hmapM : items.mapM f = .ok results)
    (hstep : ∀ a b, f a = .ok b → (p a ↔ q b)) : (∃ a ∈ items, p a) ↔ ∃ b ∈ results, q b := by
  induction mapM_eq_ok_iff_forall₂.mp hmapM with
  | nil => simp
  | cons hfirst hrest ih =>
    simp [hstep _ _ hfirst, ih (mapM_eq_ok_iff_forall₂.mpr hrest)]

/-- All items have a property exactly if all results of a traversal have the property that they give
to their results. -/
theorem forall_mem_iff_of_mapM {f : α → Except ε β} {p : α → Prop} {q : β → Prop} {items : List α}
    {results : List β} (hmapM : items.mapM f = .ok results)
    (hstep : ∀ a b, f a = .ok b → (p a ↔ q b)) : (∀ a ∈ items, p a) ↔ ∀ b ∈ results, q b := by
  have hnot := exists_mem_iff_of_mapM hmapM fun a b hab => not_congr (hstep a b hab)
  simpa using not_congr hnot

/-- A traversal that may give nothing succeeds with the results of its steps. -/
theorem mapM_eq_some_iff_forall₂ {f : α → Option β} {items : List α} {results : List β} :
    items.mapM f = some results ↔ List.Forall₂ (fun a b => f a = some b) items results := by
  induction items generalizing results with
  | nil => simp [eq_comm]
  | cons a items ih =>
    rw [List.mapM_cons, List.forall₂_cons_left_iff]
    simp only [Option.bind_eq_bind, Option.bind_eq_some_iff, Option.pure_def, Option.some.injEq, ih]
    constructor
    · rintro ⟨b, hfirst, bs, hrest, rfl⟩
      exact ⟨b, bs, hfirst, hrest, rfl⟩
    · rintro ⟨b, bs, hfirst, hrest, rfl⟩
      exact ⟨b, hfirst, bs, hrest, rfl⟩

/-- If all items of a list are read, each of them is. -/
theorem exists_of_mapM_eq_some {f : α → Option β} {items : List α} {results : List β}
    (hmap : items.mapM f = some results) {item : α} (hitem : item ∈ items) :
    ∃ result, f item = some result := by
  obtain ⟨hlength, hread⟩ := List.forall₂_iff_get.mp (mapM_eq_some_iff_forall₂.mp hmap)
  obtain ⟨position, hposition, rfl⟩ := List.getElem_of_mem hitem
  exact ⟨_, hread position hposition (hlength ▸ hposition)⟩

/-- A traversal of which every step succeeds under a condition, with a known result, succeeds if the
condition is met everywhere. -/
theorem mapM_eq_ok_iff {f : α → Except ε β} {p : α → Prop} {g : α → β}
    (hstep : ∀ a b, f a = .ok b ↔ p a ∧ b = g a) {items : List α} {results : List β} :
    items.mapM f = .ok results ↔ (∀ a ∈ items, p a) ∧ results = items.map g := by
  induction items generalizing results with
  | nil =>
    rw [List.mapM_nil, pure_eq_ok_iff]
    simp [eq_comm]
  | cons a items ih =>
    rw [List.mapM_cons, bind_eq_ok_iff, List.forall_mem_cons, List.map_cons]
    constructor
    · rintro ⟨b, hfirst, hrest⟩
      obtain ⟨bs, hothers, hresults⟩ := bind_eq_ok_iff.mp hrest
      obtain ⟨ha, rfl⟩ := (hstep a b).mp hfirst
      obtain ⟨hitems, rfl⟩ := ih.mp hothers
      exact ⟨⟨ha, hitems⟩, (pure_eq_ok_iff.mp hresults).symm⟩
    · rintro ⟨⟨ha, hitems⟩, rfl⟩
      refine ⟨g a, (hstep a (g a)).mpr ⟨ha, rfl⟩, ?_⟩
      exact bind_eq_ok_iff.mpr ⟨items.map g, ih.mpr ⟨hitems, rfl⟩, rfl⟩

/-- A traversal of which every step only changes the result of another step does the same to the
results of the other traversal. -/
theorem mapM_eq_map {γ : Type} {f : α → Except ε γ} {g : α → Except ε β} {h : β → γ}
    (hstep : ∀ a, f a = (g a).map h) (items : List α) :
    items.mapM f = (items.mapM g).map (List.map h) := by
  induction items with
  | nil => rfl
  | cons a items ih =>
    rw [List.mapM_cons, List.mapM_cons, hstep, ih]
    cases g a with
    | error e => rfl
    | ok b => cases items.mapM g <;> rfl

/-! ## Faults that are reported -/

variable {outcome : Except Fault α} {fault : Fault}

/-- What is reported has an answer exactly if there is one. -/
@[simp] theorem reported_eq_ok_iff {a : α} : reported outcome = .ok a ↔ outcome = .ok a := by
  cases outcome <;> simp [reported, Except.mapError]

/-- What is reported fails with the faults that there are. -/
@[simp] theorem reported_eq_fault_iff :
    reported outcome = .error (.fault fault) ↔ outcome = .error fault := by
  cases outcome <;> simp [reported, Except.mapError]

/-- A result that is only changed afterwards is reported as before. -/
theorem reported_map (outcome : Except Fault α) (f : α → β) :
    reported (outcome.map f) = (reported outcome).map f := by
  cases outcome <;> rfl

/-- The fault with which something ends, if it fails and does not break down. -/
def faultOf? : Except Failure α → Option Fault
  | .error (.fault fault) => some fault
  | _ => none

theorem faultOf?_eq_some_iff {x : Except Failure α} :
    faultOf? x = some fault ↔ x = .error (.fault fault) := by
  rcases x with (_ | _) | _ <;> simp [faultOf?]

theorem faultOf?_eq_none_iff {x : Except Failure α} :
    faultOf? x = none ↔ (∃ a, x = .ok a) ∨ x = .error .breakdown := by
  rcases x with (_ | _) | _ <;> simp [faultOf?]

/-- A result that is only changed afterwards is missing for the same fault. -/
theorem faultOf?_map (x : Except Failure α) (f : α → β) : faultOf? (x.map f) = faultOf? x := by
  rcases x with (_ | _) | _ <;> rfl

/-- What follows a step that is reported adds its fault, if this does not depend on the result of
the step. -/
theorem faultOf?_bind {f : α → Except Failure β} {e : Option Fault}
    (hsecond : ∀ a, outcome = .ok a → faultOf? (f a) = e) :
    faultOf? (reported outcome >>= f) = (errorOf? outcome).or e := by
  cases outcome with
  | error first => rfl
  | ok a => exact hsecond a rfl

/-- What follows a step that is reported adds no fault if it never ends with one. -/
theorem faultOf?_bind_of_none {f : α → Except Failure β}
    (hsecond : ∀ a, outcome = .ok a → faultOf? (f a) = none) :
    faultOf? (reported outcome >>= f) = errorOf? outcome := by
  rw [faultOf?_bind hsecond, Option.or_none]

end RecordQuery
