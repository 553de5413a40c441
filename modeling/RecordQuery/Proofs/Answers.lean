import RecordQuery.Proofs.Collections
import RecordQuery.Proofs.Emptiness

/-!
# Answers of queries

What a query answers, apart from what it tells on the way: its filter and its sort keys are
compiled, the items are narrowed down to those that match, and what is left is put in order. Items
are not looked at for a filter without a condition; where all of them can be viewed, this makes no
difference.
-/

namespace RecordQuery

variable {α β : Type}

namespace Logged

/-- Going on from an answer goes on from its outcome. -/
@[simp] theorem outcome_bind (first : Logged α) (next : α → Logged β) :
    (first >>= next).outcome = first.outcome >>= fun value => (next value).outcome := by
  obtain ⟨events, outcome⟩ := first
  cases outcome <;> rfl

end Logged

namespace View

variable {view : View α} {items : List α}

/-- The items that match a predicate, if there is one, without a look at them if every record
matches it. -/
def narrow (view : View α) (predicate : Option Predicate) (items : List α) :
    Except Fault (List α) :=
  match predicate with
  | none => .ok items
  | some predicate => if predicate.isMatchAll then .ok items else view.select predicate items

/-- Items are left out only if they do not match. -/
theorem eq_filter_of_narrow {predicate : Option Predicate} {kept : List α}
    (hnarrow : view.narrow predicate items = .ok kept) :
    kept = items.filter fun item => predicate.all (·.accepts (view.recordOrNull item)) := by
  unfold narrow at hnarrow
  split at hnarrow
  · rw [← Except.ok.inj hnarrow]
    simp
  · next predicate =>
    split at hnarrow
    · next hmatchAll =>
      rw [← Except.ok.inj hnarrow]
      simp [Predicate.accepts_of_isMatchAll hmatchAll]
    · exact (select_eq_ok_iff.mp hnarrow).2

/-- A predicate without a condition selects all items, and only fails if it cannot view them. -/
theorem select_of_isMatchAll {predicate : Predicate} (hmatchAll : predicate.isMatchAll = true) :
    view.select predicate items = .ok items ↔ ∀ item ∈ items, view.Shows item := by
  have hkept : (items.filter fun item => predicate.accepts (view.recordOrNull item)) = items :=
    List.filter_eq_self.mpr fun item _ => Predicate.accepts_of_isMatchAll hmatchAll _
  rw [select_eq_ok_iff, hkept]
  exact and_iff_left rfl

/-- Where all items can be viewed, they are narrowed down to those that are selected. -/
theorem narrow_eq_select (predicate : Predicate) (hshows : ∀ item ∈ items, view.Shows item) :
    view.narrow (some predicate) items = view.select predicate items := by
  rw [narrow]
  split
  · next hmatchAll => exact ((select_of_isMatchAll hmatchAll).mpr hshows).symm
  · rfl

/-- Items are narrowed down as what they stand for. -/
theorem narrow_map (view : View α) (f : β → α) (predicate : Option Predicate) (items : List β) :
    view.narrow predicate (items.map f) =
      ((view.through f).narrow predicate items).map (List.map f) := by
  unfold narrow
  cases predicate with
  | none => rfl
  | some predicate =>
    dsimp only
    by_cases hmatchAll : predicate.isMatchAll = true
    · rw [if_pos hmatchAll, if_pos hmatchAll]
      rfl
    · rw [if_neg hmatchAll, if_neg hmatchAll]
      exact view.select_map f predicate items

end View

namespace Query

variable {sorter : Sorter} {limits : Limits} {view : View α} {items answer : List α}
  {query : Query}

/-- The items that are told are those to which a collection is narrowed down. -/
theorem outcome_tellSelection (view : View α) (predicate : Option Predicate) (items : List α) :
    (tellSelection view predicate items).outcome = reported (view.narrow predicate items) := by
  unfold tellSelection View.narrow
  cases predicate with
  | none => rfl
  | some predicate =>
    dsimp only
    split
    · rfl
    · rfl

/-- An answer is reached in four steps, the first of which looks at the filter and the second at the
sort keys. -/
theorem apply_eq (sorter : Sorter) (limits : Limits) (view : View α) (items : List α)
    (query : Query) : query.apply sorter limits view items = (do
      let predicate ← reported (query.compileFilter limits)
      let plan ← reported (query.compileKeys limits)
      let kept ← reported (view.narrow predicate items)
      view.arrange sorter plan kept) := by
  simp only [apply, run, Logged.outcome_bind, outcome_tellSelection]
  rfl

/-- A query whose filter does not compile fails for that. -/
theorem apply_eq_error_of_compileFilter {fault : Fault}
    (hfilter : query.compileFilter limits = .error fault) (sorter : Sorter) (view : View α)
    (items : List α) : query.apply sorter limits view items = .error (.fault fault) := by
  rw [apply_eq, hfilter]
  rfl

/-- A query whose filter compiles, and whose sort keys do not, fails for these. -/
theorem apply_eq_error_of_compileKeys {predicate : Option Predicate} {fault : Fault}
    (hpredicate : query.compileFilter limits = .ok predicate)
    (hkeys : query.compileKeys limits = .error fault) (sorter : Sorter) (view : View α)
    (items : List α) : query.apply sorter limits view items = .error (.fault fault) := by
  rw [apply_eq, hpredicate, hkeys]
  rfl

/-- A query that is not at fault itself narrows the items down and puts what is left in order. -/
theorem apply_of_compile {predicate : Option Predicate} {plan : SortPlan}
    (hpredicate : query.compileFilter limits = .ok predicate)
    (hplan : query.compileKeys limits = .ok plan) (sorter : Sorter) (view : View α)
    (items : List α) : query.apply sorter limits view items =
      reported (view.narrow predicate items) >>= view.arrange sorter plan := by
  rw [apply_eq, hpredicate, hplan]
  rfl

/-- What is known of a query that has an answer. -/
theorem apply_eq_ok (hanswer : query.apply sorter limits view items = .ok answer) :
    ∃ predicate plan kept, query.compileFilter limits = .ok predicate ∧
      query.compileKeys limits = .ok plan ∧ view.narrow predicate items = .ok kept ∧
      view.arrange sorter plan kept = .ok answer := by
  rw [apply_eq] at hanswer
  obtain ⟨predicate, hpredicate, hanswer⟩ := bind_eq_ok_iff.mp hanswer
  obtain ⟨plan, hplan, hanswer⟩ := bind_eq_ok_iff.mp hanswer
  obtain ⟨kept, hkept, hanswer⟩ := bind_eq_ok_iff.mp hanswer
  exact ⟨predicate, plan, kept, reported_eq_ok_iff.mp hpredicate, reported_eq_ok_iff.mp hplan,
    reported_eq_ok_iff.mp hkept, hanswer⟩

/-- A query is answered for items as for what they stand for. -/
theorem apply_map (f : β → α) (items : List β) :
    query.apply sorter limits view (items.map f) =
      (query.apply sorter limits (view.through f) items).map (List.map f) := by
  rw [apply_eq, apply_eq]
  cases query.compileFilter limits with
  | error fault => rfl
  | ok predicate =>
    cases query.compileKeys limits with
    | error fault => rfl
    | ok plan =>
      have hkept := view.narrow_map f predicate items
      cases hnarrow : (view.through f).narrow predicate items with
      | error fault =>
        rw [hnarrow] at hkept
        simp only [reported, Except.mapError, bind, Except.bind, hkept, hnarrow]
        rfl
      | ok kept =>
        rw [hnarrow] at hkept
        simp only [reported, Except.mapError, bind, Except.bind, hkept, hnarrow, Except.map]
        exact view.arrange_map f plan kept

/-- An expression is without a truth value exactly if it has no condition, whatever its groups are.
So where the look at the items is left out, every record matches, and the items that are kept are
those that would be selected, if they can be viewed: selecting fails on others. The whole query has
the answer that it would have if nothing were left out. -/
theorem shortcut_agrees (predicate : Predicate) :
    (∀ record, predicate.expr.value (Condition.holds record predicate.parameters) = none ↔
        predicate.expr.isEmpty = true) ∧
      (predicate.isMatchAll = true → ∀ record, predicate.accepts record = true) ∧
      (∀ {α : Type} (view : View α) (items : List α), predicate.isMatchAll = true →
        (tellSelection view (some predicate) items).outcome = .ok items ∧
          (view.select predicate items = .ok items ↔ ∀ item ∈ items, view.Shows item)) ∧
      ∀ {α : Type} (view : View α) (items : List α), (∀ item ∈ items, view.Shows item) →
        (tellSelection view (some predicate) items).outcome =
            reported (view.select predicate items) ∧
          ∀ (sorter : Sorter) (limits : Limits) (query : Query),
            query.compileFilter limits = .ok (some predicate) →
            query.apply sorter limits view items = (do
              let plan ← reported (query.compileKeys limits)
              let kept ← reported (view.select predicate items)
              view.arrange sorter plan kept) := by
  refine ⟨fun record => Expr.value_eq_none_iff predicate.expr,
    Predicate.accepts_of_isMatchAll, ?_, ?_⟩
  · intro α view items hmatchAll
    refine ⟨?_, View.select_of_isMatchAll hmatchAll⟩
    rw [outcome_tellSelection, View.narrow, if_pos hmatchAll]
    rfl
  · intro α view items hshows
    have hnarrow := View.narrow_eq_select predicate hshows
    refine ⟨(outcome_tellSelection view _ items).trans (congrArg reported hnarrow),
      fun sorter limits query hcompile => ?_⟩
    rw [apply_eq, hcompile, ← hnarrow]
    rfl

/-- Nothing of this filter is a condition. Selecting fails for an item that cannot be viewed, at
which the query does not look before it orders; with the other item alone both have the same
answer. -/
theorem shortcut_agrees_nested :
    let view : View (Option Record) := fun item => item.elim (.error "no record") .ok
    let predicate : Predicate :=
      ⟨.group none .and [.leaf none, .group none .or [.leaf none]], ["", "", "", ""]⟩
    let query : Query :=
      { filter := some (.group "and" [.leaf "a" "eq", .group "or" [.leaf "b" "gt"]]),
        keys := some [.along .descending "a"] }
    query.compileFilter {} = .ok (some predicate) ∧ predicate.isMatchAll = true ∧
      (∀ record, predicate.accepts record = true) ∧
      (tellSelection view (some predicate) [none, some .null]).outcome = .ok [none, some .null] ∧
      view.select predicate [none, some .null] ≠ .ok [none, some .null] ∧
      (tellSelection view (some predicate) [some .null]).outcome =
        reported (view.select predicate [some .null]) ∧
      query.apply .merging {} view [some .null] = (do
        let plan ← reported (query.compileKeys {})
        let kept ← reported (view.select predicate [some .null])
        view.arrange .merging plan kept) := by
  intro view predicate query
  have hcompile : query.compileFilter {} = .ok (some predicate) := rfl
  have hmatchAll : predicate.isMatchAll = true := rfl
  obtain ⟨_, haccepts, hskipped, hagrees⟩ := shortcut_agrees predicate
  obtain ⟨hkept, hselect⟩ := hskipped view [none, some .null] hmatchAll
  have hhidden : ¬ view.Shows none := by
    rintro ⟨record, hrecord⟩
    cases hrecord
  obtain ⟨hselection, hquery⟩ := hagrees view [some .null] (by simp [View.Shows, view])
  exact ⟨hcompile, hmatchAll, haccepts hmatchAll, hkept,
    fun hselected => hhidden (hselect.mp hselected none List.mem_cons_self), hselection,
    hquery .merging {} query hcompile⟩

end Query

end RecordQuery
