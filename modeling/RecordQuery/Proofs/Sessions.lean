import Mathlib.Data.List.FinRange
import RecordQuery.Proofs.Answers

/-!
# What sessions keep

Whatever is attempted on a collection, and in whatever order, no item is lost, invented or doubled:
what is left are the items that every successful selection accepts, each of them once. An attempt
that fails changes nothing, and only a plan with keys changes the order. Items are told apart by
their positions in the first collection, so equal items count separately. An item that cannot be
viewed counts as null, which only predicates without a condition have accepted.
-/

namespace RecordQuery

variable {α β : Type}

namespace Action

/-- The predicate by which an action selects, if it does. -/
def predicate? : Action → Option Predicate
  | query limits asked => match asked.compileFilter limits with
    | .ok predicate => predicate
    | .error _ => none
  | select predicate => some predicate
  | arrange _ | sort _ => none

/-- The plan by which an action orders, without keys if it does not order. -/
def plan : Action → SortPlan
  | query limits asked => match asked.compileKeys limits with
    | .ok plan => plan
    | .error _ => {}
  | select _ => {}
  | arrange plan | sort plan => plan

/-- Whether an action does not select by a predicate that an item fails to match. -/
def accepts (view : View α) (item : α) (action : Action) : Bool :=
  action.predicate?.all (·.accepts (view.recordOrNull item))

end Action

namespace Session

/-- The items that all of several actions accept, in their order. -/
def survivors (view : View α) (actions : List Action) (items : List α) : List α :=
  items.filter fun item => actions.all (Action.accepts view item)

/-- What several actions have left of a collection: the items that all of them accept, and these in
their order if no action has ordered. -/
structure Kept (view : View α) (actions : List Action) (items left : List α) : Prop where
  perm : left.Perm (survivors view actions items)
  eq_of_isIdentity : (∀ action ∈ actions, action.plan.isIdentity = true) →
    left = survivors view actions items

variable {sorter : Sorter} {view : View α} {items middle left : List α}

/-- No action leaves everything as it is. -/
theorem kept_nil (view : View α) (items : List α) : Kept view [] items items := by
  have hall : survivors view [] items = items := by simp [survivors]
  exact ⟨.of_eq hall.symm, fun _ => hall.symm⟩

/-- What accepts an item first and what accepts it afterwards accept it together. -/
theorem survivors_append (first second : List Action) :
    survivors view (first ++ second) items =
      survivors view second (survivors view first items) := by
  rw [survivors, survivors, survivors, List.filter_filter]
  refine List.filter_congr fun item _ => ?_
  rw [List.all_append, Bool.and_comm]

/-- Actions one after the other. -/
theorem Kept.append {first second : List Action} (hfirst : Kept view first items middle)
    (hsecond : Kept view second middle left) : Kept view (first ++ second) items left where
  perm := by
    rw [survivors_append]
    exact hsecond.perm.trans (hfirst.perm.filter _)
  eq_of_isIdentity := by
    intro hidentity
    obtain ⟨hidentityFirst, hidentitySecond⟩ := List.forall_mem_append.mp hidentity
    rw [survivors_append, ← hfirst.eq_of_isIdentity hidentityFirst]
    exact hsecond.eq_of_isIdentity hidentitySecond

/-- A successful action orders what it accepts by its plan. -/
theorem sort_of_perform {action : Action} (hperform : action.perform sorter view items = .ok left) :
    action.plan.sort sorter view.recordOrNull (items.filter (Action.accepts view · action)) =
      .ok left := by
  cases action with
  | query limits asked =>
    obtain ⟨predicate, plan, kept, hpredicate, hplan, hkept, harranged⟩ :=
      Query.apply_eq_ok hperform
    have hfilter : (Action.query limits asked).predicate? = predicate := by
      rw [Action.predicate?, hpredicate]
    have hkeys : (Action.query limits asked).plan = plan := by rw [Action.plan, hplan]
    obtain ⟨_, hsort⟩ := View.arrange_eq_ok_iff.mp harranged
    rw [View.eq_filter_of_narrow hkept] at hsort
    simpa only [hkeys, Action.accepts, hfilter] using hsort
  | select predicate =>
    obtain ⟨_, rfl⟩ := View.select_eq_ok_iff.mp (reported_eq_ok_iff.mp hperform)
    exact SortPlan.sort_of_isIdentity rfl _ _
  | arrange plan =>
    have hall : items.filter (Action.accepts view · (.arrange plan)) = items :=
      List.filter_eq_self.mpr fun _ _ => rfl
    rw [hall]
    exact (View.arrange_eq_ok_iff.mp hperform).2
  | sort plan =>
    have hall : items.filter (Action.accepts view · (.sort plan)) = items :=
      List.filter_eq_self.mpr fun _ _ => rfl
    rw [hall]
    exact hperform

/-- A successful action leaves what it accepts. -/
theorem kept_perform {action : Action} (hperform : action.perform sorter view items = .ok left) :
    Kept view [action] items left := by
  have hsurvivors : survivors view [action] items =
      items.filter (Action.accepts view · action) := by
    simp [survivors]
  have hsort := sort_of_perform hperform
  rw [← hsurvivors] at hsort
  constructor
  · exact SortPlan.perm_of_sort hsort
  · intro hidentity
    rw [SortPlan.sort_of_isIdentity (hidentity action (by simp))] at hsort
    exact (Except.ok.inj hsort).symm

/-- The outcome of one attempt, and the collection that it leaves behind. -/
def attempted (sorter : Sorter) (view : View α) (items : List α) (attempt : Except Fault Action) :
    Except Failure (List α) × List α :=
  let outcome := reported attempt >>= Action.perform sorter view items
  (outcome, collectionAfter items outcome)

/-- A session goes on from what its first attempt leaves. -/
theorem run_cons (sorter : Sorter) (view : View α) (items : List α)
    (attempt : Except Fault Action) (attempts : List (Except Fault Action)) :
    run sorter view (attempt :: attempts) items = attempted sorter view items attempt ::
      run sorter view attempts (attempted sorter view items attempt).2 := rfl

/-- Every attempt has an outcome. -/
@[simp] theorem length_run (sorter : Sorter) (view : View α)
    (attempts : List (Except Fault Action)) (items : List α) :
    (run sorter view attempts items).length = attempts.length := by
  induction attempts generalizing items with
  | nil => rfl
  | cons attempt attempts ih => rw [run_cons, List.length_cons, List.length_cons, ih]

/-- The action of an attempt, if it has succeeded. -/
def succeeded? : Except Fault Action × Except Failure (List α) × List α → Option Action
  | (.ok action, .ok _, _) => some action
  | _ => none

/-- The actions that have succeeded in a session up to and with a given step. -/
def succeededBy (sorter : Sorter) (view : View α) (attempts : List (Except Fault Action))
    (items : List α) (step : Nat) : List Action :=
  ((attempts.zip (run sorter view attempts items)).take (step + 1)).filterMap succeeded?

theorem succeededBy_zero (attempt : Except Fault Action) (attempts : List (Except Fault Action)) :
    succeededBy sorter view (attempt :: attempts) items 0 =
      (succeeded? (attempt, attempted sorter view items attempt)).toList := by
  rw [succeededBy, run_cons, List.zip_cons_cons]
  cases h : succeeded? (attempt, attempted sorter view items attempt) <;> simp [h]

theorem succeededBy_succ (attempt : Except Fault Action) (attempts : List (Except Fault Action))
    (step : Nat) :
    succeededBy sorter view (attempt :: attempts) items (step + 1) =
      (succeeded? (attempt, attempted sorter view items attempt)).toList ++
        succeededBy sorter view attempts (attempted sorter view items attempt).2 step := by
  rw [succeededBy, run_cons, List.zip_cons_cons, List.take_succ_cons, List.filterMap_cons]
  cases succeeded? (attempt, attempted sorter view items attempt) <;> rfl

/-- An attempt leaves what its action accepts, and after a failure everything. -/
theorem kept_attempted (sorter : Sorter) (view : View α) (items : List α)
    (attempt : Except Fault Action) :
    Kept view (succeeded? (attempt, attempted sorter view items attempt)).toList items
      (attempted sorter view items attempt).2 := by
  cases attempt with
  | error fault => exact kept_nil view items
  | ok action =>
    have hattempted : attempted sorter view items (.ok action) =
        (action.perform sorter view items,
          collectionAfter items (action.perform sorter view items)) := rfl
    rw [hattempted]
    cases houtcome : action.perform sorter view items with
    | error fault => exact kept_nil view items
    | ok left => exact kept_perform houtcome

/-- After every step of a session, what is left is what the successful actions so far accept. -/
theorem kept_run {attempts : List (Except Fault Action)} {step : Nat}
    {outcome : Except Failure (List α)}
    (hstep : (run sorter view attempts items)[step]? = some (outcome, left)) :
    Kept view (succeededBy sorter view attempts items step) items left := by
  induction attempts generalizing items step with
  | nil => simp [run] at hstep
  | cons attempt attempts ih =>
    have hfirst := kept_attempted sorter view items attempt
    rw [run_cons] at hstep
    cases step with
    | zero =>
      have hleft : (attempted sorter view items attempt).2 = left :=
        congrArg Prod.snd (Option.some.inj hstep)
      rw [succeededBy_zero, ← hleft]
      exact hfirst
    | succ step =>
      rw [List.getElem?_cons_succ] at hstep
      rw [succeededBy_succ]
      exact hfirst.append (ih hstep)

/-! ## Positions -/

variable (sorter) (view)

/-- An action does to items what it does to what they stand for. -/
theorem perform_map (f : β → α) (items : List β) (action : Action) :
    action.perform sorter view (items.map f) =
      (action.perform sorter (view.through f) items).map (List.map f) := by
  cases action with
  | query limits asked => exact Query.apply_map f items
  | select predicate =>
    rw [Action.perform, Action.perform, view.select_map f predicate items, reported_map]
  | arrange plan => exact view.arrange_map f plan items
  | sort plan => exact plan.sort_map sorter view.recordOrNull f items

/-- An attempt does to items what it does to what they stand for. -/
theorem attempted_map (f : β → α) (items : List β) (attempt : Except Fault Action) :
    attempted sorter view (items.map f) attempt =
      ((attempted sorter (view.through f) items attempt).1.map (List.map f),
        (attempted sorter (view.through f) items attempt).2.map f) := by
  cases attempt with
  | error fault => rfl
  | ok action =>
    have hattempted : attempted sorter view (items.map f) (.ok action) =
        (action.perform sorter view (items.map f),
          collectionAfter (items.map f) (action.perform sorter view (items.map f))) := rfl
    have hthrough : attempted sorter (view.through f) items (.ok action) =
        (action.perform sorter (view.through f) items,
          collectionAfter items (action.perform sorter (view.through f) items)) := rfl
    rw [hattempted, hthrough, perform_map]
    cases action.perform sorter (view.through f) items <;> rfl

/-- A session does to items what it does to what they stand for. -/
theorem run_map (f : β → α) (attempts : List (Except Fault Action)) (items : List β) :
    run sorter view attempts (items.map f) =
      (run sorter (view.through f) attempts items).map fun result =>
        (result.1.map (List.map f), result.2.map f) := by
  induction attempts generalizing items with
  | nil => rfl
  | cons attempt attempts ih =>
    rw [run_cons, run_cons, List.map_cons, attempted_map, ih]

/-- The same actions succeed on items as on what they stand for. -/
theorem succeededBy_map (f : β → α) (attempts : List (Except Fault Action)) (items : List β)
    (step : Nat) :
    succeededBy sorter view attempts (items.map f) step =
      succeededBy sorter (view.through f) attempts items step := by
  have hsucceeded : ∀ attempt : Except Fault Action × Except Failure (List β) × List β,
      succeeded? (Prod.map id (fun result => (result.1.map (List.map f), result.2.map f)) attempt) =
        succeeded? attempt := by
    rintro ⟨attempt, outcome, left⟩
    cases attempt <;> cases outcome <;> rfl
  rw [succeededBy, run_map, List.zip_map_right, ← List.map_take, List.filterMap_map]
  exact List.filterMap_congr fun attempt _ => hsucceeded attempt

/-- A session on the positions of a collection tells which items of the collection are where. After
every step a position is left once if all successful actions so far accept the item at it, and
otherwise it is not left at all. As long as no plan with keys has been followed, the positions are
in order. -/
theorem run_keeps_accepted (sorter : Sorter) (view : View α) (items : List α)
    (attempts : List (Except Fault Action)) {step : Nat} (hstep : step < attempts.length) :
    ∃ outcome positions,
      (run sorter (view.through items.get) attempts (List.finRange items.length))[step]? =
        some (outcome, positions) ∧
      (run sorter view attempts items)[step]? =
        some (outcome.map (List.map items.get), positions.map items.get) ∧
      (∀ position, positions.count position =
        if (succeededBy sorter view attempts items step).all (Action.accepts view items[position])
        then 1 else 0) ∧
      ((∀ action ∈ succeededBy sorter view attempts items step, action.plan.isIdentity = true) →
        positions.Pairwise (· < ·)) := by
  have hget : (List.finRange items.length).map items.get = items := List.map_get_finRange items
  have hrun := run_map sorter view items.get attempts (List.finRange items.length)
  have hsucceeded :=
    succeededBy_map sorter view items.get attempts (List.finRange items.length) step
  rw [hget] at hrun hsucceeded
  have hlt : step < (run sorter (view.through items.get) attempts
      (List.finRange items.length)).length := by rwa [length_run]
  obtain ⟨⟨outcome, positions⟩, hresult⟩ : ∃ result,
      (run sorter (view.through items.get) attempts (List.finRange items.length))[step]? =
        some result := ⟨_, List.getElem?_eq_getElem hlt⟩
  have hkept := kept_run hresult
  refine ⟨outcome, positions, hresult, ?_, ?_, ?_⟩
  · rw [hrun, List.getElem?_map, hresult]
    rfl
  · intro position
    have haccepts : ∀ action, Action.accepts (view.through items.get) position action =
        Action.accepts view items[position] action := fun _ => rfl
    have hnodup : (survivors (view.through items.get) (succeededBy sorter view attempts items step)
        (List.finRange items.length)).Nodup := (List.nodup_finRange items.length).filter _
    rw [hsucceeded] at hnodup ⊢
    rw [hkept.perm.count_eq, hnodup.count]
    simp [survivors, haccepts]
  · intro hidentity
    rw [hsucceeded] at hidentity
    rw [hkept.eq_of_isIdentity hidentity]
    exact (List.pairwise_lt_finRange items.length).filter _

/-- A fault leaves all three items, and a query the two that have a name. -/
theorem run_keeps_accepted_names :
    let items : List Record := [.object [("name", .string "b")], .object [("name", .null)],
      .object [("name", .string "a")]]
    let attempts : List (Except Fault Action) := [.error (.operator "between"),
      .ok (.query {} { filter := some (.leaf "name" "isnotnull") }),
      .ok (.sort ⟨[⟨"name", .ascending⟩]⟩)]
    (run .merging (View.through .ok items.get) (attempts.take 2) (List.finRange items.length)).map
        (·.2.map Fin.val) = [[0, 1, 2], [0, 2]] ∧
      1 < attempts.length ∧
      ∃ outcome positions,
        (run .merging (View.through .ok items.get) attempts (List.finRange items.length))[1]? =
          some (outcome, positions) ∧
        (run .merging .ok attempts items)[1]? =
          some (outcome.map (List.map items.get), positions.map items.get) ∧
        (∀ position, positions.count position =
          if (succeededBy .merging .ok attempts items 1).all (Action.accepts .ok items[position])
          then 1 else 0) ∧
        ((∀ action ∈ succeededBy .merging .ok attempts items 1, action.plan.isIdentity = true) →
          positions.Pairwise (· < ·)) := by
  intro items attempts
  have hlength : 1 < attempts.length := by decide
  exact ⟨rfl, hlength, run_keeps_accepted .merging .ok items attempts hlength⟩

end Session

end RecordQuery
