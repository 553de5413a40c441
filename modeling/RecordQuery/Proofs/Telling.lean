import RecordQuery.Proofs.Precedence

/-!
# What the log of a query tells

A query tells of its four steps in their order, and of each of them at most once: of its filter, of
its sort keys, of the items that are selected, and of the items in order. What is told agrees with
the answer. There is a warning exactly if the query is at fault itself, and then nothing more is
told.
-/

namespace RecordQuery

variable {α : Type}

namespace Event

/-- The step of which an event tells: the filter, the sort keys, the selection or the order. -/
def step : Event → Nat
  | filterRejected _ | filterCompiled _ _ => 0
  | sortRejected _ | planBuilt _ => 1
  | filterSkipped | recordsSelected _ _ => 2
  | recordsArranged _ _ => 3

/-- Whether an event tells of a filter that has been compiled. -/
def isOfFilter : Event → Bool
  | filterCompiled _ _ => true
  | _ => false

/-- Whether an event tells of a plan that has been built. -/
def isOfPlan : Event → Bool
  | planBuilt _ => true
  | _ => false

/-- Whether an event tells of sorting. -/
def isOfSorting : Event → Bool
  | sortRejected _ | planBuilt _ | recordsArranged _ _ => true
  | _ => false

/-- Whether an event tells what became of the items under a filter. -/
def isOfSelection : Event → Bool
  | filterSkipped | recordsSelected _ _ => true
  | _ => false

theorem step_of_isOfSelection {event : Event} (hselection : event.isOfSelection = true) :
    event.step = 2 := by
  cases event with
  | filterSkipped => rfl
  | recordsSelected => rfl
  | _ => cases hselection

end Event

namespace Logged

/-- Going on from a failure tells no more. -/
theorem bind_of_error {first : Logged α} {β : Type} {next : α → Logged β} {failure : Failure}
    (hfirst : first.outcome = .error failure) :
    first >>= next = ⟨first.events, .error failure⟩ := by
  obtain ⟨events, outcome⟩ := first
  obtain rfl : outcome = .error failure := hfirst
  rfl

/-- Going on from an answer tells what the next step tells. -/
theorem bind_of_ok {first : Logged α} {β : Type} {next : α → Logged β} {value : α}
    (hfirst : first.outcome = .ok value) :
    first >>= next = ⟨first.events ++ (next value).events, (next value).outcome⟩ := by
  obtain ⟨events, outcome⟩ := first
  obtain rfl : outcome = .ok value := hfirst
  rfl

end Logged

namespace Query

/-- What is told of a filter that has been compiled. -/
def filterEvent? (predicate : Option Predicate) : Option Event :=
  predicate.map fun predicate => .filterCompiled predicate.expression predicate.parameters.length

/-- What is told of a plan that has been built. -/
def planEvent? (query : Query) (plan : SortPlan) : Option Event :=
  query.keys.map fun _ => .planBuilt plan.render

/-- What is told of a selection. -/
def selectionEvent? (predicate : Option Predicate) (items kept : List α) : Option Event :=
  predicate.map fun predicate =>
    if predicate.isMatchAll then .filterSkipped else .recordsSelected items.length kept.length

/-- What is told of items in order. -/
def arrangementEvent? (plan : SortPlan) (answer : List α) : Option Event :=
  if plan.isIdentity then none else some (.recordsArranged answer.length plan.render)

/-- The ways in which a query can go, with what is told on each of them. -/
inductive Course (sorter : Sorter) (limits : Limits) (view : View α) (items : List α)
    (query : Query) : List Event → Except Failure (List α) → Prop
  | filterRejected {fault : Fault} (hfilter : query.compileFilter limits = .error fault) :
    Course sorter limits view items query [.filterRejected fault] (.error (.fault fault))
  | sortRejected {predicate : Option Predicate} {fault : Fault}
    (hpredicate : query.compileFilter limits = .ok predicate)
    (hkeys : query.compileKeys limits = .error fault) :
    Course sorter limits view items query
      ((filterEvent? predicate).toList ++ [.sortRejected fault]) (.error (.fault fault))
  | selectionFailed {predicate : Option Predicate} {plan : SortPlan} {fault : Fault}
    (hpredicate : query.compileFilter limits = .ok predicate)
    (hplan : query.compileKeys limits = .ok plan)
    (hselection : view.narrow predicate items = .error fault) :
    Course sorter limits view items query
      ((filterEvent? predicate).toList ++ (query.planEvent? plan).toList) (.error (.fault fault))
  | arrangementFailed {predicate : Option Predicate} {plan : SortPlan} {kept : List α}
    {failure : Failure} (hpredicate : query.compileFilter limits = .ok predicate)
    (hplan : query.compileKeys limits = .ok plan)
    (hselection : view.narrow predicate items = .ok kept)
    (harrangement : view.arrange sorter plan kept = .error failure) :
    Course sorter limits view items query
      ((filterEvent? predicate).toList ++ (query.planEvent? plan).toList ++
        (selectionEvent? predicate items kept).toList) (.error failure)
  | answered {predicate : Option Predicate} {plan : SortPlan} {kept answer : List α}
    (hpredicate : query.compileFilter limits = .ok predicate)
    (hplan : query.compileKeys limits = .ok plan)
    (hselection : view.narrow predicate items = .ok kept)
    (harrangement : view.arrange sorter plan kept = .ok answer) :
    Course sorter limits view items query
      ((filterEvent? predicate).toList ++ (query.planEvent? plan).toList ++
        (selectionEvent? predicate items kept).toList ++ (arrangementEvent? plan answer).toList)
      (.ok answer)

variable {sorter : Sorter} {limits : Limits} {view : View α} {items : List α} {query : Query}

/-- What is told of a selection that does not fail. -/
theorem tellSelection_of_ok {predicate : Option Predicate} {kept : List α}
    (hselection : view.narrow predicate items = .ok kept) :
    tellSelection view predicate items =
      ⟨(selectionEvent? predicate items kept).toList, .ok kept⟩ := by
  unfold View.narrow at hselection
  unfold tellSelection selectionEvent?
  cases predicate with
  | none =>
    obtain rfl := Except.ok.inj hselection
    rfl
  | some predicate =>
    dsimp only at hselection ⊢
    by_cases hmatchAll : predicate.isMatchAll = true
    · rw [if_pos hmatchAll] at hselection ⊢
      obtain rfl := Except.ok.inj hselection
      simp [Logged.told, hmatchAll]
    · rw [if_neg hmatchAll] at hselection ⊢
      simp [Logged.told, hmatchAll, hselection, reported, Except.mapError]

/-- Nothing is told of a selection that fails. -/
theorem tellSelection_of_error {predicate : Option Predicate} {fault : Fault}
    (hselection : view.narrow predicate items = .error fault) :
    tellSelection view predicate items = ⟨[], .error (.fault fault)⟩ := by
  unfold View.narrow at hselection
  unfold tellSelection
  cases predicate with
  | none => cases hselection
  | some predicate =>
    dsimp only at hselection ⊢
    by_cases hmatchAll : predicate.isMatchAll = true
    · rw [if_pos hmatchAll] at hselection
      cases hselection
    · rw [if_neg hmatchAll] at hselection ⊢
      simp [Logged.told, hselection, reported, Except.mapError]

/-- Every query goes one of these ways. -/
theorem course_run (sorter : Sorter) (limits : Limits) (view : View α) (items : List α)
    (query : Query) : Course sorter limits view items query
      (query.run sorter limits view items).events (query.run sorter limits view items).outcome := by
  unfold run
  cases hpredicate : query.compileFilter limits with
  | error fault =>
    have hfilter : query.tellFilter limits = ⟨[.filterRejected fault], .error (.fault fault)⟩ := by
      rw [tellFilter, hpredicate]
      rfl
    rw [hfilter, Logged.bind_of_error rfl]
    exact .filterRejected hpredicate
  | ok predicate =>
    have hfilter : query.tellFilter limits = ⟨(filterEvent? predicate).toList, .ok predicate⟩ := by
      rw [tellFilter, hpredicate]
      rfl
    rw [hfilter, Logged.bind_of_ok rfl]
    cases hplan : query.compileKeys limits with
    | error fault =>
      have hkeys : query.tellKeys limits = ⟨[.sortRejected fault], .error (.fault fault)⟩ := by
        rw [tellKeys, hplan]
        rfl
      rw [hkeys, Logged.bind_of_error rfl]
      exact .sortRejected hpredicate hplan
    | ok plan =>
      have hkeys : query.tellKeys limits = ⟨(query.planEvent? plan).toList, .ok plan⟩ := by
        rw [tellKeys, hplan]
        rfl
      rw [hkeys, Logged.bind_of_ok rfl]
      cases hselection : view.narrow predicate items with
      | error fault =>
        rw [tellSelection_of_error hselection, Logged.bind_of_error rfl]
        simpa using Course.selectionFailed hpredicate hplan hselection
      | ok kept =>
        rw [tellSelection_of_ok hselection, Logged.bind_of_ok rfl]
        cases harrangement : view.arrange sorter plan kept with
        | error failure =>
          -- The arrangement has no event of its own for either kind of failure.
          have harranged : tellArrangement sorter view plan kept = ⟨[], .error failure⟩ := by
            rw [tellArrangement, harrangement]
            cases failure <;> rfl
          rw [harranged]
          simpa using Course.arrangementFailed hpredicate hplan hselection harrangement
        | ok answer =>
          have harranged : tellArrangement sorter view plan kept =
              ⟨(arrangementEvent? plan answer).toList, .ok answer⟩ := by
            rw [tellArrangement, harrangement]
            rfl
          rw [harranged]
          simpa using Course.answered hpredicate hplan hselection harrangement

/-! ## What is told on each of these ways -/

section Course

variable {predicate : Option Predicate} {plan : SortPlan} {kept answer : List α} {event : Event}
  {events : List Event} {outcome : Except Failure (List α)}

theorem mem_filterEvent? : event ∈ (filterEvent? predicate).toList ↔
    ∃ compiled, predicate = some compiled ∧
      event = .filterCompiled compiled.expression compiled.parameters.length := by
  cases predicate <;> simp [filterEvent?]

theorem mem_planEvent? : event ∈ (query.planEvent? plan).toList ↔
    query.keys ≠ none ∧ event = .planBuilt plan.render := by
  unfold planEvent?
  cases query.keys <;> simp

theorem mem_selectionEvent? : event ∈ (selectionEvent? predicate items kept).toList ↔
    ∃ compiled, predicate = some compiled ∧
      (compiled.isMatchAll = true ∧ event = .filterSkipped ∨
        compiled.isMatchAll = false ∧ event = .recordsSelected items.length kept.length) := by
  cases predicate with
  | none => simp [selectionEvent?]
  | some compiled => cases hmatchAll : compiled.isMatchAll <;> simp [selectionEvent?, hmatchAll]

theorem mem_arrangementEvent? : event ∈ (arrangementEvent? plan answer).toList ↔
    plan.keys ≠ [] ∧ event = .recordsArranged answer.length plan.render := by
  unfold arrangementEvent? SortPlan.isIdentity
  cases plan.keys <;> simp

/-- Each of four steps is told of once at most, and in the order of the steps. -/
theorem pairwise_step {first second third fourth : Option Event}
    (hfirst : ∀ event ∈ first.toList, event.step = 0)
    (hsecond : ∀ event ∈ second.toList, event.step = 1)
    (hthird : ∀ event ∈ third.toList, event.step = 2)
    (hfourth : ∀ event ∈ fourth.toList, event.step = 3) :
    ((first.toList ++ second.toList ++ third.toList ++ fourth.toList).map Event.step).Pairwise
      (· < ·) := by
  cases first <;> cases second <;> cases third <;> cases fourth <;> simp_all

/-- The steps are told of in their order, each of them once at most. -/
theorem Course.pairwise_step (hcourse : Course sorter limits view items query events outcome) :
    (events.map Event.step).Pairwise (· < ·) := by
  have hfilter : ∀ predicate, ∀ event ∈ (filterEvent? predicate).toList, event.step = 0 := by
    intro predicate event hevent
    obtain ⟨_, _, rfl⟩ := mem_filterEvent?.mp hevent
    rfl
  have hplan : ∀ plan, ∀ event ∈ (query.planEvent? plan).toList, event.step = 1 := by
    intro plan event hevent
    obtain ⟨_, rfl⟩ := mem_planEvent?.mp hevent
    rfl
  have hselection : ∀ predicate (kept : List α),
      ∀ event ∈ (selectionEvent? predicate items kept).toList, event.step = 2 := by
    intro predicate kept event hevent
    obtain ⟨_, _, ⟨_, rfl⟩ | ⟨_, rfl⟩⟩ := mem_selectionEvent?.mp hevent
    · rfl
    · rfl
  have harrangement : ∀ plan (answer : List α),
      ∀ event ∈ (arrangementEvent? plan answer).toList, event.step = 3 := by
    intro plan answer event hevent
    obtain ⟨_, rfl⟩ := mem_arrangementEvent?.mp hevent
    rfl
  have hnone : ∀ step : Nat, ∀ event ∈ (none : Option Event).toList, event.step = step := by simp
  cases hcourse with
  | filterRejected => simp
  | @sortRejected _ fault =>
    have hsort : ∀ event ∈ (some (Event.sortRejected fault)).toList, event.step = 1 := by
      simp [Event.step]
    simpa using Query.pairwise_step (hfilter _) hsort (hnone 2) (hnone 3)
  | selectionFailed =>
    simpa using Query.pairwise_step (hfilter _) (hplan _) (hnone 2) (hnone 3)
  | arrangementFailed =>
    simpa using Query.pairwise_step (hfilter _) (hplan _) (hselection _ _) (hnone 3)
  | answered => exact Query.pairwise_step (hfilter _) (hplan _) (hselection _ _) (harrangement _ _)

/-- What happens while a query is carried out, told without the order: a step is rejected, or it is
reached and does what it does. -/
inductive Happens (limits : Limits) (view : View α) (items : List α) (query : Query)
    (outcome : Except Failure (List α)) : Event → Prop
  | filterRejected {fault : Fault} (hfilter : query.compileFilter limits = .error fault) :
    Happens limits view items query outcome (.filterRejected fault)
  | filterCompiled {compiled : Predicate}
    (hpredicate : query.compileFilter limits = .ok (some compiled)) :
    Happens limits view items query outcome
      (.filterCompiled compiled.expression compiled.parameters.length)
  | sortRejected {predicate : Option Predicate} {fault : Fault}
    (hpredicate : query.compileFilter limits = .ok predicate)
    (hkeys : query.compileKeys limits = .error fault) :
    Happens limits view items query outcome (.sortRejected fault)
  | planBuilt {predicate : Option Predicate} {plan : SortPlan}
    (hpredicate : query.compileFilter limits = .ok predicate)
    (hplan : query.compileKeys limits = .ok plan) (hkeys : query.keys ≠ none) :
    Happens limits view items query outcome (.planBuilt plan.render)
  | filterSkipped {compiled : Predicate} {plan : SortPlan}
    (hpredicate : query.compileFilter limits = .ok (some compiled))
    (hplan : query.compileKeys limits = .ok plan) (hmatchAll : compiled.isMatchAll = true) :
    Happens limits view items query outcome .filterSkipped
  | recordsSelected {compiled : Predicate} {plan : SortPlan} {kept : List α}
    (hpredicate : query.compileFilter limits = .ok (some compiled))
    (hplan : query.compileKeys limits = .ok plan) (hmatchAll : compiled.isMatchAll = false)
    (hselection : view.narrow (some compiled) items = .ok kept) :
    Happens limits view items query outcome (.recordsSelected items.length kept.length)
  | recordsArranged {predicate : Option Predicate} {plan : SortPlan} {answer : List α}
    (hpredicate : query.compileFilter limits = .ok predicate)
    (hplan : query.compileKeys limits = .ok plan) (hanswer : outcome = .ok answer)
    (hkeys : plan.keys ≠ []) :
    Happens limits view items query outcome (.recordsArranged answer.length plan.render)

/-- What is told is what happens. -/
theorem Course.mem_iff_happens (hcourse : Course sorter limits view items query events outcome) :
    event ∈ events ↔ Happens limits view items query outcome event := by
  have hfilter : ∀ predicate, query.compileFilter limits = .ok predicate →
      event ∈ (filterEvent? predicate).toList →
      Happens limits view items query outcome event := by
    intro predicate hpredicate hevent
    obtain ⟨compiled, rfl, rfl⟩ := mem_filterEvent?.mp hevent
    exact .filterCompiled hpredicate
  have hplan : ∀ predicate plan, query.compileFilter limits = .ok predicate →
      query.compileKeys limits = .ok plan → event ∈ (query.planEvent? plan).toList →
      Happens limits view items query outcome event := by
    intro predicate plan hpredicate hplan hevent
    obtain ⟨hkeys, rfl⟩ := mem_planEvent?.mp hevent
    exact .planBuilt hpredicate hplan hkeys
  have hselection : ∀ predicate plan kept, query.compileFilter limits = .ok predicate →
      query.compileKeys limits = .ok plan → view.narrow predicate items = .ok kept →
      event ∈ (selectionEvent? predicate items kept).toList →
      Happens limits view items query outcome event := by
    intro predicate plan kept hpredicate hbuilt hkept hevent
    obtain ⟨compiled, rfl, ⟨hmatchAll, rfl⟩ | ⟨hmatchAll, rfl⟩⟩ := mem_selectionEvent?.mp hevent
    · exact .filterSkipped hpredicate hbuilt hmatchAll
    · exact .recordsSelected hpredicate hbuilt hmatchAll hkept
  constructor
  · intro hevent
    cases hcourse with
    | filterRejected hrejected =>
      obtain rfl := List.mem_singleton.mp hevent
      exact .filterRejected hrejected
    | sortRejected hpredicate hrejected =>
      rcases List.mem_append.mp hevent with hevent | hevent
      · exact hfilter _ hpredicate hevent
      · obtain rfl := List.mem_singleton.mp hevent
        exact .sortRejected hpredicate hrejected
    | selectionFailed hpredicate hbuilt =>
      rcases List.mem_append.mp hevent with hevent | hevent
      · exact hfilter _ hpredicate hevent
      · exact hplan _ _ hpredicate hbuilt hevent
    | arrangementFailed hpredicate hbuilt hkept =>
      simp only [List.mem_append] at hevent
      rcases hevent with (hevent | hevent) | hevent
      · exact hfilter _ hpredicate hevent
      · exact hplan _ _ hpredicate hbuilt hevent
      · exact hselection _ _ _ hpredicate hbuilt hkept hevent
    | answered hpredicate hbuilt hkept =>
      simp only [List.mem_append] at hevent
      rcases hevent with ((hevent | hevent) | hevent) | hevent
      · exact hfilter _ hpredicate hevent
      · exact hplan _ _ hpredicate hbuilt hevent
      · exact hselection _ _ _ hpredicate hbuilt hkept hevent
      · obtain ⟨hkeys, rfl⟩ := mem_arrangementEvent?.mp hevent
        exact .recordsArranged hpredicate hbuilt rfl hkeys
  · -- What happens fixes the way, up to those on which it happens too.
    intro hhappens
    cases hhappens with
    | filterRejected hrejected => cases hcourse <;> simp_all
    | filterCompiled hpredicate =>
      cases hcourse <;> simp_all [mem_filterEvent?, -Option.mem_toList]
    | sortRejected hpredicate hrejected => cases hcourse <;> simp_all
    | planBuilt hpredicate hbuilt hkeys =>
      cases hcourse <;> simp_all [mem_planEvent?, -Option.mem_toList]
    | filterSkipped hpredicate hbuilt hmatchAll =>
      cases hcourse <;> simp_all [mem_selectionEvent?, View.narrow, -Option.mem_toList]
    | recordsSelected hpredicate hbuilt hmatchAll hkept =>
      cases hcourse <;> simp_all [mem_selectionEvent?, -Option.mem_toList]
    | recordsArranged hpredicate hbuilt hanswer hkeys =>
      cases hcourse <;> simp_all [mem_arrangementEvent?, -Option.mem_toList]

/-- A query ends with a fault of the request exactly if it has been rejected for it. -/
theorem Course.rejected_iff (hcourse : Course sorter limits view items query events outcome)
    {fault : Fault} :
    (query.compileFilter limits = .error fault ∨
        (∃ predicate, query.compileFilter limits = .ok predicate) ∧
          query.compileKeys limits = .error fault) ↔
      outcome = .error (.fault fault) ∧ fault.isClientFault = true := by
  constructor
  · intro hrejected
    have hclient : fault.isClientFault = true :=
      isClientFault_of_compile (hrejected.imp_right And.right)
    refine ⟨?_, hclient⟩
    rcases hrejected with hfilter | ⟨⟨predicate, hpredicate⟩, hkeys⟩
    · cases hcourse <;> simp_all
    · cases hcourse <;> simp_all
  · rintro ⟨houtcome, hclient⟩
    cases hcourse with
    | filterRejected hfilter =>
      obtain rfl := Failure.fault.inj (Except.error.inj houtcome)
      exact .inl hfilter
    | sortRejected hpredicate hkeys =>
      obtain rfl := Failure.fault.inj (Except.error.inj houtcome)
      exact .inr ⟨⟨_, hpredicate⟩, hkeys⟩
    | selectionFailed _ _ hselection =>
      obtain ⟨reason, rfl⟩ := View.exists_of_narrow hselection
      cases houtcome
      cases hclient
    | arrangementFailed _ _ _ harrangement =>
      rw [Except.error.inj houtcome] at harrangement
      obtain ⟨reason, rfl⟩ := View.exists_of_arrange harrangement
      cases hclient
    | answered => cases houtcome

end Course

/-! ## The log against the answer -/

/-- What a log tells of a query, against the query and its answer. -/
structure Truthful (limits : Limits) (view : View α) (items : List α) (query : Query)
    (log : Logged (List α)) : Prop where
  /-- The steps are told of in their order, each of them once at most. -/
  in_order : (log.events.map Event.step).Pairwise (· < ·)
  /-- There is one warning at most. -/
  warnings_le : log.events.countP (·.severity == .warning) ≤ 1
  /-- There is one exactly if the query fails by a fault of the request. -/
  warning_iff : (∃ event ∈ log.events, event.severity = .warning) ↔
    ∃ fault, log.outcome = .error (.fault fault) ∧ fault.isClientFault = true
  /-- It comes last, and its details are the code and the message of this fault. -/
  warning_last : ∀ before event after, log.events = before ++ event :: after →
    event.severity = .warning → after = [] ∧ ∃ fault, log.outcome = .error (.fault fault) ∧
      event.details = [("code", .text fault.code), ("error", .text fault.message)]
  /-- A filter is told of exactly if there is one and it compiles, with its expression and the
  number of its nodes. -/
  filterCompiled_iff : ∀ expression parameters,
    .filterCompiled expression parameters ∈ log.events ↔
      ∃ filter predicate, query.filter = some filter ∧ filter.compile limits = .ok predicate ∧
        expression = predicate.expression ∧ parameters = filter.count
  /-- Nothing of sorting is told before it. -/
  filterCompiled_first : ∀ before expression parameters after,
    log.events = before ++ .filterCompiled expression parameters :: after →
      ∀ event ∈ before, event.isOfSorting = false
  /-- A plan is told of exactly if sort keys are given, none of them too, the filter is not
  rejected, and the plan is built from them. -/
  planBuilt_iff : ∀ ordering, .planBuilt ordering ∈ log.events ↔
    (∀ filter ∈ query.filter, ∃ predicate, filter.compile limits = .ok predicate) ∧
      ∃ requests plan, query.keys = some requests ∧
        SortPlan.build limits requests = .ok plan ∧ ordering = plan.render
  /-- A selection and its omission are not both told of. -/
  selection_le : log.events.countP Event.isOfSelection ≤ 1
  /-- One of them is told of exactly if there is a filter, it compiles and the plan is built, unless
  the selection fails for an item that cannot be viewed. -/
  selection_iff : log.events.countP Event.isOfSelection = 1 ↔
    ∃ filter predicate plan, query.filter = some filter ∧
      filter.compile limits = .ok predicate ∧ query.compileKeys limits = .ok plan ∧
      (predicate.isMatchAll = true ∨ ∀ item ∈ items, view.Shows item)
  /-- It is told of after the filter and after the plan. -/
  selection_after : ∀ before event after, log.events = before ++ event :: after →
    event.isOfSelection = true →
      ∀ other ∈ log.events, other.isOfFilter = true ∨ other.isOfPlan = true → other ∈ before
  /-- The number of items before a selection is that of all items. -/
  selected_before : ∀ before after, .recordsSelected before after ∈ log.events →
    before = items.length
  /-- The number of items after a selection is that of the answer. -/
  selected_after : ∀ before after answer, .recordsSelected before after ∈ log.events →
    log.outcome = .ok answer → after = answer.length
  /-- An order is told of exactly if there is an answer and the plan has keys, with the number of
  the items in the answer. -/
  arranged_iff : ∀ records ordering, .recordsArranged records ordering ∈ log.events ↔
    ∃ answer plan, log.outcome = .ok answer ∧ query.compileKeys limits = .ok plan ∧
      plan.keys ≠ [] ∧ records = answer.length ∧ ordering = plan.render

section Truthful

variable {events before after : List Event} {event : Event}

/-- A query has a predicate exactly if it has a filter that compiles. -/
theorem compileFilter_eq_some_iff {compiled : Predicate} :
    query.compileFilter limits = .ok (some compiled) ↔
      ∃ filter, query.filter = some filter ∧ filter.compile limits = .ok compiled := by
  unfold compileFilter
  cases query.filter with
  | none => simp [pure_eq_ok_iff]
  | some filter => simp [map_eq_ok_iff]

/-- The filter of a query is not rejected exactly if it compiles wherever there is one. -/
theorem exists_compileFilter_iff : (∃ predicate, query.compileFilter limits = .ok predicate) ↔
    ∀ filter ∈ query.filter, ∃ predicate, filter.compile limits = .ok predicate := by
  unfold compileFilter
  cases query.filter with
  | none => simp [pure_eq_ok_iff]
  | some filter => simp [map_eq_ok_iff]

/-- The plan of a query is built from its sort keys, if it has any. -/
theorem compileKeys_of_keys {requests : List KeyRequest} (hkeys : query.keys = some requests) :
    query.compileKeys limits = SortPlan.build limits requests := by
  rw [compileKeys, hkeys]

/-- What is told before an event is of an earlier step, and what is told after it of a later one. -/
theorem step_lt_of_split (horder : (events.map Event.step).Pairwise (· < ·))
    (hsplit : events = before ++ event :: after) :
    (∀ other ∈ before, other.step < event.step) ∧ ∀ other ∈ after, event.step < other.step := by
  rw [hsplit, List.map_append, List.map_cons, List.pairwise_append, List.pairwise_cons] at horder
  obtain ⟨_, ⟨hafter, _⟩, hbefore⟩ := horder
  constructor
  · intro other hother
    exact hbefore _ (List.mem_map_of_mem hother) _ List.mem_cons_self
  · intro other hother
    exact hafter _ (List.mem_map_of_mem hother)

/-- Of events of which each two are of different steps, one at most is of a given step. -/
theorem countP_le_one (horder : (events.map Event.step).Pairwise (· < ·)) {p : Event → Bool}
    {step : Nat} (hp : ∀ event, p event = true → event.step = step) : events.countP p ≤ 1 := by
  have hnodup : (events.map Event.step).Nodup := horder.imp Nat.ne_of_lt
  calc events.countP p ≤ events.countP fun event => event.step == step :=
        List.countP_mono_left fun event _ hevent => by simpa using hp event hevent
    _ = (events.map Event.step).count step := by
        rw [List.count, List.countP_map]
        rfl
    _ ≤ 1 := by
        rw [hnodup.count]
        split <;> decide

variable {outcome : Except Failure (List α)}

/-- There is a warning exactly if the query fails by a fault of the request. -/
theorem Course.warning_iff (hcourse : Course sorter limits view items query events outcome) :
    (∃ event ∈ events, event.severity = .warning) ↔
      ∃ fault, outcome = .error (.fault fault) ∧ fault.isClientFault = true := by
  simp only [← hcourse.rejected_iff, hcourse.mem_iff_happens]
  constructor
  · rintro ⟨event, hhappens, hwarning⟩
    cases hhappens with
    | filterRejected hfilter => exact ⟨_, .inl hfilter⟩
    | sortRejected hpredicate hkeys => exact ⟨_, .inr ⟨⟨_, hpredicate⟩, hkeys⟩⟩
    | _ => cases hwarning
  · rintro ⟨fault, hfilter | ⟨⟨predicate, hpredicate⟩, hkeys⟩⟩
    · exact ⟨_, .filterRejected hfilter, rfl⟩
    · exact ⟨_, .sortRejected hpredicate hkeys, rfl⟩

/-- A warning comes last, with the code and the message of the fault with which the query ends. -/
theorem Course.warning_last (hcourse : Course sorter limits view items query events outcome)
    (hsplit : events = before ++ event :: after) (hwarning : event.severity = .warning) :
    after = [] ∧ ∃ fault, outcome = .error (.fault fault) ∧
      event.details = [("code", .text fault.code), ("error", .text fault.message)] := by
  have hevent : Happens limits view items query outcome event := by
    rw [← hcourse.mem_iff_happens, hsplit]
    exact List.mem_append_right _ List.mem_cons_self
  have hlater : ∀ other ∈ after, event.step < other.step ∧
      Happens limits view items query outcome other := by
    intro other hother
    refine ⟨(step_lt_of_split hcourse.pairwise_step hsplit).2 other hother, ?_⟩
    rw [← hcourse.mem_iff_happens, hsplit]
    exact List.mem_append_right _ (List.mem_cons_of_mem _ hother)
  cases hevent with
  | filterRejected hfilter =>
    refine ⟨List.eq_nil_iff_forall_not_mem.mpr fun other hother => ?_, _,
      (hcourse.rejected_iff.mp (.inl hfilter)).1, rfl⟩
    obtain ⟨hstep, hhappens⟩ := hlater other hother
    cases hhappens <;> simp_all [Event.step]
  | sortRejected hpredicate hkeys =>
    refine ⟨List.eq_nil_iff_forall_not_mem.mpr fun other hother => ?_, _,
      (hcourse.rejected_iff.mp (.inr ⟨⟨_, hpredicate⟩, hkeys⟩)).1, rfl⟩
    obtain ⟨hstep, hhappens⟩ := hlater other hother
    cases hhappens <;> simp_all [Event.step]
  | _ => cases hwarning

/-- There is one warning at most, since every one comes last. -/
theorem Course.warnings_le (hcourse : Course sorter limits view items query events outcome) :
    events.countP (·.severity == .warning) ≤ 1 := by
  by_cases hwarned : ∃ event ∈ events, event.severity = .warning
  · obtain ⟨event, hevent, hwarning⟩ := hwarned
    obtain ⟨before, after, hsplit⟩ := List.append_of_mem hevent
    obtain ⟨rfl, _⟩ := hcourse.warning_last hsplit hwarning
    have hbefore : before.countP (·.severity == .warning) = 0 := by
      rw [List.countP_eq_zero]
      intro other hother hother'
      obtain ⟨first, rest, rfl⟩ := List.append_of_mem hother
      rw [List.append_assoc] at hsplit
      obtain ⟨hnil, _⟩ := hcourse.warning_last hsplit (by simpa using hother')
      simp at hnil
    rw [hsplit, List.countP_append, hbefore]
    simp [hwarning]
  · have hzero : events.countP (·.severity == .warning) = 0 := by
      rw [List.countP_eq_zero]
      intro event hevent hwarning
      exact hwarned ⟨event, hevent, by simpa using hwarning⟩
    omega

/-- The number of items after a selection is that of the answer, since ordering keeps them all. -/
theorem length_eq_of_arrange {plan : SortPlan} {kept answer : List α}
    (harrange : view.arrange sorter plan kept = .ok answer) : answer.length = kept.length :=
  (SortPlan.perm_of_sort (View.arrange_eq_ok_iff.mp harrange).2).length_eq

/-- A selection succeeds if its predicate has no condition, or every item can be viewed. -/
theorem exists_narrow_iff {compiled : Predicate} :
    (∃ kept, view.narrow (some compiled) items = .ok kept) ↔
      compiled.isMatchAll = true ∨ ∀ item ∈ items, view.Shows item := by
  rw [← errorOf?_eq_none_iff, View.errorOf?_narrow, Option.any_some]
  cases compiled.isMatchAll with
  | true => simp
  | false => simp [View.firstFault?_eq_none_iff]

/-- A selection or its omission is told of exactly if the filter and the plan are there and the
selection does not fail. -/
theorem Course.selection_iff (hcourse : Course sorter limits view items query events outcome) :
    (∃ event ∈ events, event.isOfSelection = true) ↔
      ∃ compiled plan, query.compileFilter limits = .ok (some compiled) ∧
        query.compileKeys limits = .ok plan ∧
        (compiled.isMatchAll = true ∨ ∀ item ∈ items, view.Shows item) := by
  simp only [hcourse.mem_iff_happens]
  constructor
  · rintro ⟨event, hhappens, hselection⟩
    cases hhappens with
    | filterSkipped hpredicate hplan hmatchAll =>
      exact ⟨_, _, hpredicate, hplan, .inl hmatchAll⟩
    | recordsSelected hpredicate hplan _ hkept =>
      exact ⟨_, _, hpredicate, hplan, exists_narrow_iff.mp ⟨_, hkept⟩⟩
    | _ => cases hselection
  · rintro ⟨compiled, plan, hpredicate, hplan, hshows⟩
    cases hmatchAll : compiled.isMatchAll with
    | true => exact ⟨_, .filterSkipped hpredicate hplan hmatchAll, rfl⟩
    | false =>
      obtain ⟨kept, hkept⟩ := exists_narrow_iff.mpr hshows
      exact ⟨_, .recordsSelected hpredicate hplan hmatchAll hkept, rfl⟩

/-- The number of items that are told to be left after a selection is that of the answer. -/
theorem Course.selected_after (hcourse : Course sorter limits view items query events outcome)
    {number left : Nat} {answer : List α} (hevent : .recordsSelected number left ∈ events)
    (hanswer : outcome = .ok answer) : left = answer.length := by
  rw [hcourse.mem_iff_happens] at hevent
  cases hevent with
  | recordsSelected hpredicate _ _ hkept =>
    cases hcourse with
    | answered hpredicate' _ hkept' harrange =>
      obtain rfl := Except.ok.inj hanswer
      obtain rfl := Except.ok.inj (hpredicate.symm.trans hpredicate')
      obtain rfl := Except.ok.inj (hkept.symm.trans hkept')
      exact (length_eq_of_arrange harrange).symm
    | _ => cases hanswer

/-- A filter is told of exactly if it has been compiled. -/
theorem Course.filterCompiled_iff (hcourse : Course sorter limits view items query events outcome)
    {expression : String} {parameters : Nat} :
    .filterCompiled expression parameters ∈ events ↔
      ∃ filter predicate, query.filter = some filter ∧ filter.compile limits = .ok predicate ∧
        expression = predicate.expression ∧ parameters = filter.count := by
  have hlength : ∀ (filter : Filter) (predicate : Predicate),
      filter.compile limits = .ok predicate → predicate.parameters.length = filter.count := by
    intro filter predicate hcompile
    obtain ⟨_, _, _, hparameters⟩ := Filter.compile_eq_ok hcompile
    rw [hparameters, Filter.length_parameters]
  rw [hcourse.mem_iff_happens]
  constructor
  · intro hhappens
    cases hhappens with
    | filterCompiled hpredicate =>
      obtain ⟨filter, hfilter, hcompile⟩ := compileFilter_eq_some_iff.mp hpredicate
      exact ⟨filter, _, hfilter, hcompile, rfl, hlength _ _ hcompile⟩
  · rintro ⟨filter, predicate, hfilter, hcompile, rfl, rfl⟩
    rw [← hlength _ _ hcompile]
    exact .filterCompiled (compileFilter_eq_some_iff.mpr ⟨filter, hfilter, hcompile⟩)

/-- A plan is told of exactly if it has been built from sort keys. -/
theorem Course.planBuilt_iff (hcourse : Course sorter limits view items query events outcome)
    {ordering : String} :
    .planBuilt ordering ∈ events ↔
      (∀ filter ∈ query.filter, ∃ predicate, filter.compile limits = .ok predicate) ∧
        ∃ requests plan, query.keys = some requests ∧
          SortPlan.build limits requests = .ok plan ∧ ordering = plan.render := by
  rw [hcourse.mem_iff_happens, ← exists_compileFilter_iff]
  constructor
  · intro hhappens
    cases hhappens with
    | planBuilt hpredicate hplan hkeys =>
      obtain ⟨requests, hrequests⟩ := Option.ne_none_iff_exists'.mp hkeys
      rw [compileKeys_of_keys hrequests] at hplan
      exact ⟨⟨_, hpredicate⟩, requests, _, hrequests, hplan, rfl⟩
  · rintro ⟨⟨predicate, hpredicate⟩, requests, plan, hrequests, hplan, rfl⟩
    rw [← compileKeys_of_keys hrequests] at hplan
    exact .planBuilt hpredicate hplan (by simp [hrequests])

/-- An order is told of exactly if there is an answer and the plan has keys. -/
theorem Course.arranged_iff (hcourse : Course sorter limits view items query events outcome)
    {records : Nat} {ordering : String} :
    .recordsArranged records ordering ∈ events ↔
      ∃ answer plan, outcome = .ok answer ∧ query.compileKeys limits = .ok plan ∧
        plan.keys ≠ [] ∧ records = answer.length ∧ ordering = plan.render := by
  rw [hcourse.mem_iff_happens]
  constructor
  · intro hhappens
    cases hhappens with
    | recordsArranged _ hplan hanswer hkeys =>
      exact ⟨_, _, hanswer, hplan, hkeys, rfl, rfl⟩
  · rintro ⟨answer, plan, hanswer, hplan, hkeys, rfl, rfl⟩
    cases hcourse with
    | answered hpredicate => exact .recordsArranged hpredicate hplan hanswer hkeys
    | _ => cases hanswer

/-- What is told of a filter or of a plan stands before what is told of a selection. -/
theorem Course.mem_before_of_selection
    (hcourse : Course sorter limits view items query events outcome)
    (hsplit : events = before ++ event :: after) (hselection : event.isOfSelection = true)
    {other : Event} (hmem : other ∈ events) (hother : other.step < 2) : other ∈ before := by
  have hstep := Event.step_of_isOfSelection hselection
  rw [hsplit, List.mem_append, List.mem_cons] at hmem
  rcases hmem with hmem | rfl | hmem
  · exact hmem
  · omega
  · have hlater := (step_lt_of_split hcourse.pairwise_step hsplit).2 other hmem
    omega

/-- The log of a query tells the truth: it has one warning at most, and one exactly if the query
fails by a fault of the request, last and with this fault; and whatever else it tells, or does not
tell, is so of the filter, the sort keys and the answer. -/
theorem run_truthful (sorter : Sorter) (limits : Limits) (view : View α) (items : List α)
    (query : Query) : Truthful limits view items query (query.run sorter limits view items) := by
  have hcourse := course_run sorter limits view items query
  have horder := hcourse.pairwise_step
  have hselectionLe : (query.run sorter limits view items).events.countP Event.isOfSelection ≤ 1 :=
    countP_le_one horder fun _ => Event.step_of_isOfSelection
  constructor
  case in_order => exact horder
  case warnings_le => exact hcourse.warnings_le
  case warning_iff => exact hcourse.warning_iff
  case warning_last => exact fun _ _ _ => hcourse.warning_last
  case filterCompiled_iff => exact fun _ _ => hcourse.filterCompiled_iff
  case filterCompiled_first =>
    intro before expression parameters after hsplit event hevent
    exact absurd ((step_lt_of_split horder hsplit).1 event hevent) (Nat.not_lt_zero _)
  case planBuilt_iff => exact fun _ => hcourse.planBuilt_iff
  case selection_le => exact hselectionLe
  case selection_iff =>
    have hone : (query.run sorter limits view items).events.countP Event.isOfSelection = 1 ↔
        ∃ event ∈ (query.run sorter limits view items).events, event.isOfSelection = true := by
      rw [← List.countP_pos_iff]
      omega
    rw [hone, hcourse.selection_iff]
    simp only [compileFilter_eq_some_iff]
    constructor
    · rintro ⟨compiled, plan, ⟨filter, hfilter, hcompile⟩, hplan, hshows⟩
      exact ⟨filter, compiled, plan, hfilter, hcompile, hplan, hshows⟩
    · rintro ⟨filter, compiled, plan, hfilter, hcompile, hplan, hshows⟩
      exact ⟨compiled, plan, ⟨filter, hfilter, hcompile⟩, hplan, hshows⟩
  case selection_after =>
    intro before event after hsplit hselection other hmem hother
    refine hcourse.mem_before_of_selection hsplit hselection hmem ?_
    cases other <;> simp_all [Event.isOfFilter, Event.isOfPlan, Event.step]
  case selected_before =>
    intro number left hevent
    rw [hcourse.mem_iff_happens] at hevent
    cases hevent with
    | recordsSelected => rfl
  case selected_after => exact fun _ _ _ => hcourse.selected_after
  case arranged_iff => exact fun _ _ => hcourse.arranged_iff

/-- All four steps of a query, and the same query stopped at a direction that is none. -/
example :
    let filter := Filter.leaf "age" "gte" |>.withValue "18"
    let items : List Record := [.object [("age", .number (.integer 17))],
      .object [("age", .number (.integer 40))]]
    let query : Query := { filter := some filter, keys := some [.along .descending "age"] }
    let stopped : Query := { query with keys := some [{ field := "age", direction := "up" }] }
    (query.run .merging {} .ok items).events = [.filterCompiled "age >= @0" 1,
      .planBuilt "age desc", .recordsSelected 2 1, .recordsArranged 1 "age desc"] ∧
    (stopped.run .merging {} .ok items).events = [.filterCompiled "age >= @0" 1,
      .sortRejected (.direction "up")] := by
  decide +kernel

end Truthful

end Query

end RecordQuery
