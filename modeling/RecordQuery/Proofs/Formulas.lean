import RecordQuery.Proofs.Combining
import RecordQuery.Proofs.Meaning

/-!
# Formulas

A filter is a formula if every node either only groups others or is a condition without children.
Read plainly, an `and` group of a formula is true if all its children are, and an `or` group if some
child is. Matching differs from this reading. A group without a condition of its own leaves its
connective behind, and an `or` that is left behind another child of an `and` group cuts this group
in two, of which one half is enough. Formulas are read plainly where no `or` group stands so.
-/

namespace RecordQuery.Filter

/-- Whether a node forms a condition: it has a value, or an operator that needs none. -/
def hasCondition (filter : Filter) : Bool :=
  filter.hasValue || filter.operator == Operator.isNull.token ||
    filter.operator == Operator.isNotNull.token

/-- A filter of which every node with children only groups these, and every node without children
forms a condition. -/
def IsFormula (filter : Filter) : Prop :=
  ∀ node ∈ filter.flatten,
    if node.children = [] then node.hasCondition = true else node.isGrouping = true

instance (filter : Filter) : Decidable filter.IsFormula :=
  inferInstanceAs (Decidable (∀ node ∈ filter.flatten, _))

mutual

/-- The plain reading of a formula: a node without children means its condition, an `and` group that
all its children hold, and an `or` group that some child holds. -/
def holds (record : Record) : Filter → Bool
  | filter@⟨_, _, _, connective, children⟩ =>
    if children.isEmpty then filter.ownMeaning record == some true
    else if connective = some Connective.and.token then allHold record children
    else anyHolds record children

/-- Whether all of several formulas hold. -/
def allHold (record : Record) : List Filter → Bool
  | [] => true
  | filter :: filters => holds record filter && allHold record filters

/-- Whether some of several formulas holds. -/
def anyHolds (record : Record) : List Filter → Bool
  | [] => false
  | filter :: filters => holds record filter || anyHolds record filters

end

/-- Whether a node joins children by `or`. -/
def isOrGroup (filter : Filter) : Bool :=
  !filter.children.isEmpty && filter.connective == some Connective.or.token

/-- No `or` group stands behind another child of an `and` group. -/
def OrsLead (filter : Filter) : Prop :=
  ∀ node ∈ filter.flatten, node.connective = some Connective.and.token →
    ∀ child ∈ node.children.tail, child.isOrGroup = false

instance (filter : Filter) : Decidable filter.OrsLead :=
  inferInstanceAs (Decidable (∀ node ∈ filter.flatten, _))

/-! ## One node of a formula -/

@[simp] theorem allHold_eq_all (record : Record) (filters : List Filter) :
    allHold record filters = filters.all (holds record) := by
  induction filters with
  | nil => rfl
  | cons filter filters ih => rw [allHold, ih, List.all_cons]

@[simp] theorem anyHolds_eq_any (record : Record) (filters : List Filter) :
    anyHolds record filters = filters.any (holds record) := by
  induction filters with
  | nil => rfl
  | cons filter filters ih => rw [anyHolds, ih, List.any_cons]

/-- A formula as the compiler accepts it. -/
inductive Formula (strict : Bool) : Filter → Prop
  | leaf {filter : Filter} (hchildren : filter.children = [])
    (hcondition : filter.hasCondition = true)
    (hown : ∃ condition, ownCondition strict filter 0 = .ok condition) : Formula strict filter
  | group {filter : Filter} {connective : Connective} (hgrouping : filter.isGrouping = true)
    (hconnective : readConnective filter = .ok connective)
    (hchildren : ∀ child ∈ filter.children, Formula strict child) : Formula strict filter

variable {strict : Bool} {record : Record} {filter : Filter} {connective : Connective}

/-- A node that only groups others has some to group. -/
theorem children_ne_nil_of_isGrouping (hgrouping : filter.isGrouping = true) :
    filter.children ≠ [] := by
  intro hnil
  simp [isGrouping, hnil] at hgrouping

/-- A node that only groups others has no condition. -/
theorem ownMeaning_of_isGrouping (hgrouping : filter.isGrouping = true) :
    filter.ownMeaning record = none := by
  rw [ownMeaning, if_pos hgrouping]

/-- A node that forms a condition has one. -/
theorem exists_formCondition {op : Operator} (hcondition : filter.hasCondition = true)
    (hop : Operator.ofToken filter.operator = .ok op) (slot : Nat) :
    ∃ condition, filter.formCondition op slot = some condition := by
  unfold formCondition
  by_cases hvalue : filter.hasValue = true
  · rw [hvalue]
    cases op.kind <;> exact ⟨_, rfl⟩
  · -- Without a value the operator is one that needs none.
    rw [hasCondition, Bool.or_eq_true, Bool.or_eq_true, beq_iff_eq, beq_iff_eq] at hcondition
    have hkind : op.kind = .nullTest := by
      rcases hcondition with (htrue | hnull) | hnull
      · exact absurd htrue hvalue
      · rw [hnull] at hop
        cases hop
        rfl
      · rw [hnull] at hop
        cases hop
        rfl
    rw [hkind]
    exact ⟨_, rfl⟩

/-- The condition of a node without children that forms one is true or false. -/
theorem exists_ownMeaning (record : Record) (hchildren : filter.children = [])
    (hcondition : filter.hasCondition = true)
    (hown : ∃ condition, ownCondition strict filter 0 = .ok condition) :
    ∃ b, filter.ownMeaning record = some b := by
  obtain ⟨condition, hown⟩ := hown
  have hgrouping : filter.isGrouping = false := by simp [isGrouping, hchildren]
  rcases ownCondition_eq_ok hown with ⟨htrue, _⟩ | ⟨op, hread, _⟩
  · rw [hgrouping] at htrue
    cases htrue
  · obtain ⟨_, _, hop⟩ := readOperator_eq_ok hread
    obtain ⟨own, hform⟩ := exists_formCondition hcondition hop 0
    refine ⟨own.holds record [filter.parameter], ?_⟩
    rw [ownMeaning, hgrouping, hop]
    exact congrArg (Option.map _) hform

/-- What a node without children means. -/
theorem meaning_of_children_eq_nil (hchildren : filter.children = []) :
    filter.meaning record = filter.ownMeaning record := by
  rw [meaning, readInto_of_children_eq_nil hchildren]
  rfl

/-- What a node that only groups others means. -/
theorem meaning_of_isGrouping (hgrouping : filter.isGrouping = true)
    (hconnective : readConnective filter = .ok connective) :
    filter.meaning record = (readAllInto record connective filter.children {}).value := by
  rw [meaning, readInto_of_children_ne_nil (children_ne_nil_of_isGrouping hgrouping) hconnective,
    ownMeaning_of_isGrouping hgrouping]
  cases connective <;> rfl

/-- A formula is read into a level as one operand. The connective of an `or` group closes the clause
that was open. -/
theorem Formula.readInto_eq (hformula : Formula strict filter) (level : Level) :
    filter.readInto record level =
      (if filter.isOrGroup then level.join .or else level).push (filter.meaning record) := by
  cases hformula with
  | leaf hchildren hcondition hown =>
    have hor : filter.isOrGroup = false := by simp [isOrGroup, hchildren]
    rw [readInto_of_children_eq_nil hchildren, meaning_of_children_eq_nil hchildren, hor]
    rfl
  | @group _ connective hgrouping hconnective hchildren =>
    have hne := children_ne_nil_of_isGrouping hgrouping
    have hor : filter.isOrGroup = (connective == .or) := by
      rw [isOrGroup, readConnective_eq_ok_iff.mp hconnective]
      cases connective <;> simp [hne, Connective.token]
    rw [readInto_of_children_ne_nil hne hconnective, ownMeaning_of_isGrouping hgrouping,
      meaning_of_isGrouping hgrouping hconnective, hor]
    rw [Level.push_none]
    cases connective <;> rfl

/-! ## One level of a formula -/

section Group

variable {filters : List Filter}

/-- Filters are read into levels. -/
theorem reads (record : Record) : Reads (readInto record) (readAllInto record) where
  node filter := by
    obtain ⟨field, operator, value, token, children⟩ := filter
    simp only [readInto]
    split
    · exact .inr ⟨_, _, _, fun _ => rfl⟩
    · exact .inl ⟨_, fun _ => rfl⟩
  nil _ _ := rfl
  cons _ _ _ _ := rfl

/-- Children under `or` of which each is true or false are read plainly: some of them is true. -/
theorem value_readAllInto_or {truth : Filter → Bool}
    (htruth : ∀ filter ∈ filters, filter.meaning record = some (truth filter))
    (hne : filters ≠ []) :
    (readAllInto record .or filters {}).value = some (filters.any truth) := by
  have hvalue : (readAllInto record .or filters {}).value =
      Connective.or.combine (filters.map (meaning record)) := (reads record).value_or filters {}
  rw [hvalue, List.map_congr_left htruth, Connective.combine_map_some truth hne, if_neg (by simp)]

/-- Children under `and` come to what they mean one by one, if no `or` group stands behind another
child. -/
theorem value_readAllInto_and (hformulas : ∀ filter ∈ filters, Formula strict filter)
    (hlead : ∀ filter ∈ filters.tail, filter.isOrGroup = false) :
    (readAllInto record .and filters {}).value =
      Connective.and.combine (filters.map (meaning record)) := by
  cases filters with
  | nil => rfl
  | cons first others =>
    obtain ⟨hfirst, hothers⟩ := List.forall_mem_cons.mp hformulas
    -- On a level that has not begun, an `or` closes nothing.
    have hstep : first.readInto record (Level.join {} .and) =
        Level.push {} (first.meaning record) := by
      rw [hfirst.readInto_eq]
      cases first.isOrGroup <;> rfl
    have hpush : ∀ filter ∈ others, ∀ level,
        filter.readInto record level = level.push (filter.meaning record) := by
      intro filter hfilter level
      rw [(hothers filter hfilter).readInto_eq, hlead filter hfilter]
      rfl
    rw [readAllInto, hstep, (reads record).push_and hpush, Level.push_push, List.map_cons,
      Connective.combine_cons]
    rfl

/-- Children that are all true make the last clause of their level true, whatever the connective. -/
theorem clause_readAllInto (hformulas : ∀ filter ∈ filters, Formula strict filter)
    (hmeaning : ∀ filter ∈ filters, ∃ b, filter.meaning record = some b) (hne : filters ≠ [])
    (level : Level) :
    ∃ b, (readAllInto record connective filters level).clause = some b ∧
      (level.clause ≠ some false → (∀ filter ∈ filters, filter.meaning record = some true) →
        b = true) := by
  induction filters generalizing level with
  | nil => exact absurd rfl hne
  | cons filter filters ih =>
    obtain ⟨hfilter, hrest⟩ := List.forall_mem_cons.mp hformulas
    obtain ⟨⟨a, ha⟩, hothers⟩ := List.forall_mem_cons.mp hmeaning
    obtain ⟨b, hclause, hb⟩ : ∃ b,
        (filter.readInto record (level.join connective)).clause = some b ∧
          (level.clause ≠ some false → a = true → b = true) := by
      rw [hfilter.readInto_eq, ha]
      obtain ⟨b, hclause, hb⟩ := Level.clause_push_some
        (if filter.isOrGroup then (level.join connective).join .or else level.join connective) a
      refine ⟨b, hclause, fun hlevel => hb ?_⟩
      split
      · exact Level.clause_join_ne (Level.clause_join_ne hlevel)
      · exact Level.clause_join_ne hlevel
    have htrue : (∀ other ∈ filter :: filters, other.meaning record = some true) → a = true ∧
        ∀ other ∈ filters, other.meaning record = some true := by
      intro hall
      obtain ⟨hfirst, hall⟩ := List.forall_mem_cons.mp hall
      exact ⟨Option.some.inj (ha.symm.trans hfirst), hall⟩
    rw [readAllInto]
    by_cases hnil : filters = []
    · subst hnil
      exact ⟨b, hclause, fun hlevel hall => hb hlevel (htrue hall).1⟩
    · obtain ⟨c, hlast, hc⟩ :=
        ih hrest hothers hnil (filter.readInto record (level.join connective))
      refine ⟨c, hlast, fun hlevel hall => hc ?_ (htrue hall).2⟩
      rw [hclause, hb hlevel (htrue hall).1]
      simp

/-- Children are true or false together, and true if each of them is. -/
theorem value_readAllInto (hformulas : ∀ filter ∈ filters, Formula strict filter)
    (hmeaning : ∀ filter ∈ filters, ∃ b, filter.meaning record = some b) (hne : filters ≠ []) :
    ∃ v, (readAllInto record connective filters {}).value = some v ∧
      ((∀ filter ∈ filters, filter.meaning record = some true) → v = true) := by
  obtain ⟨b, hclause, hb⟩ : ∃ b, (readAllInto record connective filters {}).clause = some b ∧ _ :=
    clause_readAllInto hformulas hmeaning hne {}
  obtain ⟨v, hvalue, hv⟩ := Level.exists_value_of_clause hclause
  exact ⟨v, hvalue, fun hall => hv (hb (by simp) hall)⟩

end Group

/-! ## The plain reading -/

/-- The plain reading of a node without children. -/
theorem holds_of_children_eq_nil (hchildren : filter.children = []) :
    filter.holds record = (filter.ownMeaning record == some true) := by
  obtain ⟨field, operator, value, token, children⟩ := filter
  obtain rfl : children = [] := hchildren
  rw [holds]
  rfl

/-- The plain reading of a group. -/
theorem holds_of_children_ne_nil (hchildren : filter.children ≠ [])
    (hconnective : readConnective filter = .ok connective) :
    filter.holds record =
      if connective = .and then filter.children.all (holds record)
      else filter.children.any (holds record) := by
  rw [readConnective_eq_ok_iff] at hconnective
  obtain ⟨field, operator, value, token, children⟩ := filter
  obtain rfl : token = some connective.token := hconnective
  rw [holds, if_neg (by simpa using hchildren), allHold_eq_all, anyHolds_eq_any]
  cases connective <;> rfl

/-- Where `or` groups lead, a node and everything below it is so. -/
theorem orsLead_iff : filter.OrsLead ↔
    (filter.connective = some Connective.and.token →
      ∀ child ∈ filter.children.tail, child.isOrGroup = false) ∧
    ∀ child ∈ filter.children, child.OrsLead :=
  forall_mem_flatten

/-- A truth that is there is whether it is true. -/
theorem eq_some_beq_true {a : Option Bool} (ha : ∃ b, a = some b) : a = some (a == some true) := by
  obtain ⟨b, rfl⟩ := ha
  cases b <;> rfl

/-- A formula is true or false, and it is true if it is so when it is read plainly. -/
theorem Formula.exists_meaning (hformula : Formula strict filter) (record : Record) :
    ∃ b, filter.meaning record = some b ∧ (filter.holds record = true → b = true) := by
  induction hformula with
  | leaf hchildren hcondition hown =>
    obtain ⟨b, hb⟩ := exists_ownMeaning record hchildren hcondition hown
    refine ⟨b, by rw [meaning_of_children_eq_nil hchildren, hb], fun hholds => ?_⟩
    rw [holds_of_children_eq_nil hchildren, hb, beq_iff_eq] at hholds
    exact Option.some.inj hholds
  | @group filter connective hgrouping hconnective hchildren ih =>
    have hne := children_ne_nil_of_isGrouping hgrouping
    have hmeaning : ∀ child ∈ filter.children, ∃ b, child.meaning record = some b :=
      fun child hchild => (ih child hchild).imp fun _ hb => hb.1
    have htrue : ∀ child ∈ filter.children, child.holds record = true →
        child.meaning record = some true := by
      intro child hchild hholds
      obtain ⟨b, hb, himp⟩ := ih child hchild
      rw [hb, himp hholds]
    rw [meaning_of_isGrouping hgrouping hconnective, holds_of_children_ne_nil hne hconnective]
    cases connective with
    | and =>
      obtain ⟨v, hvalue, hv⟩ : ∃ v, (readAllInto record .and filter.children {}).value = some v ∧
          _ := value_readAllInto hchildren hmeaning hne
      refine ⟨v, hvalue, fun hholds => hv fun child hchild => ?_⟩
      rw [if_pos rfl, List.all_eq_true] at hholds
      exact htrue child hchild (hholds child hchild)
    | or =>
      have htruth : ∀ child ∈ filter.children,
          child.meaning record = some (child.meaning record == some true) :=
        fun child hchild => eq_some_beq_true (hmeaning child hchild)
      refine ⟨_, value_readAllInto_or htruth hne, fun hholds => ?_⟩
      rw [if_neg (by simp), List.any_eq_true] at hholds
      obtain ⟨child, hchild, hholds⟩ := hholds
      exact List.any_eq_true.mpr ⟨child, hchild, by simp [htrue child hchild hholds]⟩

/-- Where `or` groups lead, a formula is true when it is so if it is read plainly. -/
theorem Formula.meaning_eq_holds (hformula : Formula strict filter) (hlead : filter.OrsLead)
    (record : Record) : filter.meaning record = some (filter.holds record) := by
  induction hformula with
  | leaf hchildren hcondition hown =>
    obtain ⟨b, hb⟩ := exists_ownMeaning record hchildren hcondition hown
    rw [meaning_of_children_eq_nil hchildren, holds_of_children_eq_nil hchildren, hb]
    cases b <;> rfl
  | @group filter connective hgrouping hconnective hchildren ih =>
    have hne := children_ne_nil_of_isGrouping hgrouping
    obtain ⟨htail, hbelow⟩ := orsLead_iff.mp hlead
    have hmeaning : ∀ child ∈ filter.children, child.meaning record = some (child.holds record) :=
      fun child hchild => ih child hchild (hbelow child hchild)
    rw [meaning_of_isGrouping hgrouping hconnective, holds_of_children_ne_nil hne hconnective]
    cases connective with
    | and =>
      rw [value_readAllInto_and hchildren (htail (readConnective_eq_ok_iff.mp hconnective)),
        List.map_congr_left hmeaning, Connective.combine_map_some (holds record) hne]
    | or =>
      rw [value_readAllInto_or hmeaning hne]
      rfl

end RecordQuery.Filter
