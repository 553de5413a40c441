import RecordQuery.Proofs.Formulas

/-!
# Shapes of formulas

The shape of a filter is what is left of it without the conditions: its groups and their
connectives. A formula can be painted, so that its conditions are all true, or all false, of the
record without members. Painting keeps the shape, and so does another choice of children of the same
shapes.
-/

namespace RecordQuery.Filter

mutual

/-- The shape of a filter: its groups with their connectives, and nothing of the other nodes. -/
def skeleton : Filter → Filter
  | ⟨_, _, _, connective, children⟩ =>
    if children.isEmpty then {} else { connective, children := skeletonAll children }

/-- The shapes of several filters. -/
def skeletonAll : List Filter → List Filter
  | [] => []
  | filter :: filters => skeleton filter :: skeletonAll filters

end

/-- A condition that is true, or false, of a record without members. -/
def probe (truth : Bool) : Filter :=
  leaf "a" (if truth then Operator.isNull else Operator.isNotNull).token

mutual

/-- The filter with the same condition in all nodes that have no children. -/
def paint (truth : Bool) : Filter → Filter
  | ⟨field, operator, value, connective, children⟩ =>
    if children.isEmpty then probe truth
    else ⟨field, operator, value, connective, paintAll truth children⟩

/-- Several filters with the same condition in all nodes that have no children. -/
def paintAll (truth : Bool) : List Filter → List Filter
  | [] => []
  | filter :: filters => paint truth filter :: paintAll truth filters

end

@[simp] theorem skeletonAll_eq_map (filters : List Filter) :
    skeletonAll filters = filters.map skeleton := by
  induction filters with
  | nil => rfl
  | cons filter filters ih => rw [skeletonAll, ih, List.map_cons]

@[simp] theorem paintAll_eq_map (truth : Bool) (filters : List Filter) :
    paintAll truth filters = filters.map (paint truth) := by
  induction filters with
  | nil => rfl
  | cons filter filters ih => rw [paintAll, ih, List.map_cons]

variable {strict : Bool} {filter other : Filter} {connective : Connective}

/-- The shape of a node without children. -/
theorem skeleton_of_children_eq_nil (hchildren : filter.children = []) : filter.skeleton = {} := by
  obtain ⟨field, operator, value, token, children⟩ := filter
  obtain rfl : children = [] := hchildren
  rfl

/-- The shape of a node with children. -/
theorem skeleton_of_children_ne_nil (hchildren : filter.children ≠ []) :
    filter.skeleton =
      { connective := filter.connective, children := filter.children.map skeleton } := by
  obtain ⟨field, operator, value, token, children⟩ := filter
  rw [skeleton, if_neg (by simpa using hchildren), skeletonAll_eq_map]

/-- A node has children if its shape has. -/
theorem children_skeleton (filter : Filter) :
    filter.skeleton.children = filter.children.map skeleton := by
  by_cases hchildren : filter.children = []
  · rw [skeleton_of_children_eq_nil hchildren, hchildren]
    rfl
  · rw [skeleton_of_children_ne_nil hchildren]

/-- Whether a node joins children by `or` is seen at its shape. -/
theorem isOrGroup_skeleton (filter : Filter) : filter.skeleton.isOrGroup = filter.isOrGroup := by
  by_cases hchildren : filter.children = []
  · rw [skeleton_of_children_eq_nil hchildren]
    simp [isOrGroup, hchildren]
  · rw [skeleton_of_children_ne_nil hchildren]
    simp [isOrGroup]

/-- Whether `or` groups lead is seen at the shape. -/
theorem orsLead_skeleton (filter : Filter) : filter.skeleton.OrsLead ↔ filter.OrsLead := by
  induction filter using Filter.induction with
  | node filter ih =>
    by_cases hchildren : filter.children = []
    · rw [skeleton_of_children_eq_nil hchildren, orsLead_iff, orsLead_iff, hchildren]
      simp
    · rw [skeleton_of_children_ne_nil hchildren, orsLead_iff, orsLead_iff]
      simp only [← List.map_tail, List.forall_mem_map, isOrGroup_skeleton]
      refine and_congr_right fun _ => ?_
      exact forall₂_congr ih

/-- The number of nodes is seen at the shape. -/
theorem count_skeleton (filter : Filter) : filter.skeleton.count = filter.count := by
  induction filter using Filter.induction with
  | node filter ih =>
    rw [count_eq_sum, count_eq_sum filter, children_skeleton, List.map_map]
    congr 2
    exact List.map_congr_left ih

/-- The depth is seen at the shape. -/
theorem depth_skeleton (filter : Filter) : filter.skeleton.depth = filter.depth := by
  induction filter using Filter.induction with
  | node filter ih =>
    rw [depth_eq_foldr, depth_eq_foldr filter, children_skeleton, List.map_map]
    congr 2
    exact List.map_congr_left ih

/-- Painting keeps the shape. -/
theorem skeleton_paint (truth : Bool) (filter : Filter) :
    (filter.paint truth).skeleton = filter.skeleton := by
  induction filter using Filter.induction with
  | node filter ih =>
    obtain ⟨field, operator, value, token, _ | ⟨child, children⟩⟩ := filter
    · rfl
    · rw [paint, if_neg (by simp), paintAll_eq_map, skeleton_of_children_ne_nil (by simp),
        skeleton_of_children_ne_nil (by simp)]
      simp only [List.map_map]
      congr 1
      exact List.map_congr_left ih

/-! ## Formulas of one shape -/

/-- A condition of a painted filter is a formula. -/
theorem formula_probe (truth : Bool) : Formula strict (probe truth) := by
  refine .leaf rfl ?_ ?_
  · cases truth <;> rfl
  · cases strict <;> cases truth <;> exact ⟨_, rfl⟩

/-- A group with other children in the place of its own. -/
def regroup (filter : Filter) (children : List Filter) : Filter :=
  { filter with children }

/-- A group whose children are replaced by formulas of the same shapes is a formula of its shape. -/
theorem formula_regroup (hgrouping : filter.isGrouping = true)
    (hconnective : readConnective filter = .ok connective) {children : List Filter}
    (hformulas : ∀ child ∈ children, Formula strict child)
    (hshapes : children.map skeleton = filter.children.map skeleton) :
    (filter.regroup children).isGrouping = true ∧ Formula strict (filter.regroup children) ∧
      (filter.regroup children).skeleton = filter.skeleton := by
  have hne := children_ne_nil_of_isGrouping hgrouping
  have hother : children ≠ [] := by
    rintro rfl
    exact hne (List.map_eq_nil_iff.mp hshapes.symm)
  have hregroup : (filter.regroup children).isGrouping = true := by
    simp only [isGrouping, Bool.and_eq_true] at hgrouping ⊢
    exact ⟨⟨⟨by simpa [regroup] using hother, hgrouping.1.1.2⟩, hgrouping.1.2⟩, hgrouping.2⟩
  refine ⟨hregroup, .group hregroup hconnective hformulas, ?_⟩
  rw [skeleton_of_children_ne_nil hother, skeleton_of_children_ne_nil hne]
  exact congrArg (Filter.mk "" "" none filter.connective) hshapes

theorem meaning_regroup {record : Record} {children : List Filter}
    (hgrouping : (filter.regroup children).isGrouping = true)
    (hconnective : readConnective filter = .ok connective) :
    (filter.regroup children).meaning record = (readAllInto record connective children {}).value :=
  meaning_of_isGrouping hgrouping hconnective

theorem holds_regroup {record : Record} {children : List Filter} (hne : children ≠ [])
    (hconnective : readConnective filter = .ok connective) :
    (filter.regroup children).holds record =
      if connective = .and then children.all (holds record) else children.any (holds record) :=
  holds_of_children_ne_nil hne hconnective

/-- The record without members. -/
def blank : Record := .object []

/-- What all items of a list have in common, all and some of them have. -/
theorem all_any_of_forall {α : Type} {items : List α} {f : α → Bool} {b : Bool} (hne : items ≠ [])
    (hitems : ∀ a ∈ items, f a = b) : items.all f = b ∧ items.any f = b := by
  obtain ⟨a, rest, rfl⟩ := List.exists_cons_of_ne_nil hne
  obtain ⟨ha, hrest⟩ := List.forall_mem_cons.mp hitems
  cases b with
  | true => simpa [ha] using hrest
  | false => simpa [ha] using hrest

/-- A painted formula is a formula, and has everywhere the truth with which it has been painted. -/
theorem formula_paint (truth : Bool) (hformula : Formula strict filter) :
    Formula strict (filter.paint truth) ∧ (filter.paint truth).holds blank = truth := by
  induction hformula with
  | @leaf filter hchildren hcondition hown =>
    obtain ⟨field, operator, value, token, children⟩ := filter
    obtain rfl : children = [] := hchildren
    refine ⟨formula_probe truth, ?_⟩
    cases truth <;> rfl
  | @group filter connective hgrouping hconnective hchildren ih =>
    have hne := children_ne_nil_of_isGrouping hgrouping
    have hpaint : filter.paint truth = filter.regroup (filter.children.map (paint truth)) := by
      obtain ⟨field, operator, value, token, children⟩ := filter
      rw [paint, if_neg (by simpa using hne), paintAll_eq_map]
      rfl
    have hformulas : ∀ child ∈ filter.children.map (paint truth), Formula strict child :=
      List.forall_mem_map.mpr fun child hchild => (ih child hchild).1
    have hshapes : (filter.children.map (paint truth)).map skeleton =
        filter.children.map skeleton := by
      rw [List.map_map]
      exact List.map_congr_left fun child _ => skeleton_paint truth child
    have hholds : ∀ child ∈ filter.children.map (paint truth), child.holds blank = truth :=
      List.forall_mem_map.mpr fun child hchild => (ih child hchild).2
    have hpainted : filter.children.map (paint truth) ≠ [] := by simpa using hne
    rw [hpaint]
    refine ⟨(formula_regroup hgrouping hconnective hformulas hshapes).2.1, ?_⟩
    obtain ⟨hall, hany⟩ := all_any_of_forall hpainted hholds
    rw [holds_regroup hpainted hconnective]
    split
    · exact hall
    · exact hany

end RecordQuery.Filter
