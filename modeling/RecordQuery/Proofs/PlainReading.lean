import RecordQuery.Proofs.Shapes

/-!
# Which formulas are read plainly

If an `or` group stands behind another child of an `and` group somewhere in a shape, then some
formula of this shape matches a record of which it is not true. Where no `or` group stands so, every
formula matches the records of which it is true when it is read plainly.
-/

namespace RecordQuery.Filter

variable {strict : Bool} {filter other : Filter} {connective : Connective}

/-- What is painted true means true. -/
theorem meaning_paint_true (hformula : Formula strict filter) :
    (filter.paint true).meaning blank = some true := by
  obtain ⟨hpainted, hholds⟩ := formula_paint true hformula
  obtain ⟨b, hmeaning, hb⟩ := hpainted.exists_meaning blank
  rw [hmeaning, hb hholds]

/-- A formula of the shape of a filter that is true of the record without members, but is not when
it is read plainly. -/
structure Misread (strict : Bool) (filter other : Filter) : Prop where
  formula : Formula strict other
  skeleton_eq : other.skeleton = filter.skeleton
  meaning_eq : other.meaning blank = some true
  holds_eq : other.holds blank = false

/-- An `and` group is misread if an `or` group stands behind another child: let what stands before
it be true, and nothing else. -/
theorem exists_misread_here (hgrouping : filter.isGrouping = true)
    (hconnective : readConnective filter = .ok .and) {before after : List Filter} {late : Filter}
    (hsplit : filter.children = before ++ late :: after)
    (hchildren : ∀ child ∈ filter.children, Formula strict child) (hbefore : before ≠ [])
    (hlate : late.isOrGroup = true) : ∃ other, Misread strict filter other := by
  have hformula : ∀ child ∈ before ++ late :: after, Formula strict child := hsplit ▸ hchildren
  let first := before.map (paint true)
  let rest := after.map (paint false)
  have hfirst : ∀ child ∈ first, Formula strict child :=
    List.forall_mem_map.mpr fun child hchild =>
      (formula_paint true (hformula child (List.mem_append_left _ hchild))).1
  have htrue : ∀ child ∈ first, child.meaning blank = some true :=
    List.forall_mem_map.mpr fun child hchild =>
      meaning_paint_true (hformula child (List.mem_append_left _ hchild))
  obtain ⟨hpainted, hfalse⟩ := formula_paint false (hformula late (by simp))
  have hrest : ∀ child ∈ rest, Formula strict child :=
    List.forall_mem_map.mpr fun child hchild =>
      (formula_paint false (hformula child (by simp [hchild]))).1
  have hshapes : (first ++ late.paint false :: rest).map skeleton =
      filter.children.map skeleton := by
    simp only [first, rest, hsplit, List.map_append, List.map_cons, List.map_map, skeleton_paint,
      Function.comp_def]
  obtain ⟨hregroup, hgroup, hskeleton⟩ := formula_regroup hgrouping hconnective
    (List.forall_mem_append.mpr ⟨hfirst, List.forall_mem_cons.mpr ⟨hpainted, hrest⟩⟩) hshapes
  refine ⟨_, hgroup, hskeleton, ?_, ?_⟩
  · rw [meaning_regroup hregroup hconnective, (reads blank).append, readAllInto]
    obtain ⟨b, hclause, hb⟩ : ∃ b, (readAllInto blank .and first {}).clause = some b ∧ _ :=
      clause_readAllInto hfirst (fun child hchild => ⟨true, htrue child hchild⟩)
        (by simpa [first] using hbefore) {}
    rw [hb (by simp) htrue] at hclause
    have hor : (late.paint false).isOrGroup = true := by
      rw [← isOrGroup_skeleton, skeleton_paint, isOrGroup_skeleton, hlate]
    refine Level.value_of_closed ((reads blank).closed rest ?_)
    rw [hpainted.readInto_eq, if_pos hor]
    -- The connective of the `or` group closes the clause in front of it, which is true.
    exact Level.closed_join_or hclause
  · rw [holds_regroup (by simp) hconnective, if_pos rfl]
    exact List.all_eq_false.mpr ⟨late.paint false, by simp, by simp [hfalse]⟩

/-- A group with a child that is misread is so itself: let all other children be true under `and`,
and none under `or`. -/
theorem exists_misread_below (hgrouping : filter.isGrouping = true)
    (hconnective : readConnective filter = .ok connective) {before after : List Filter}
    {child other : Filter} (hsplit : filter.children = before ++ child :: after)
    (hchildren : ∀ child ∈ filter.children, Formula strict child)
    (hmisread : Misread strict child other) : ∃ other, Misread strict filter other := by
  obtain ⟨hother, hshape, hmeaning, hholds⟩ := hmisread
  have hformula : ∀ child ∈ before ++ after, Formula strict child := by
    intro child hchild
    refine hchildren child ?_
    rw [hsplit]
    rcases List.mem_append.mp hchild with hbefore | hafter
    · simp [hbefore]
    · simp [hafter]
  let truth := connective == .and
  let children := before.map (paint truth) ++ other :: after.map (paint truth)
  -- A child is the one that is misread, or has been painted.
  have hcases : ∀ child ∈ children, child = other ∨
      ∃ origin, Formula strict origin ∧ child = origin.paint truth := by
    intro child hchild
    simp only [children, List.mem_append, List.mem_cons, List.mem_map] at hchild
    rcases hchild with ⟨origin, horigin, rfl⟩ | rfl | ⟨origin, horigin, rfl⟩
    · exact .inr ⟨origin, hformula origin (by simp [horigin]), rfl⟩
    · exact .inl rfl
    · exact .inr ⟨origin, hformula origin (by simp [horigin]), rfl⟩
  have hformulas : ∀ child ∈ children, Formula strict child := by
    intro child hchild
    rcases hcases child hchild with rfl | ⟨origin, horigin, rfl⟩
    · exact hother
    · exact (formula_paint truth horigin).1
  have hshapes : children.map skeleton = filter.children.map skeleton := by
    simp only [children, hsplit, List.map_append, List.map_cons, List.map_map, skeleton_paint,
      hshape, Function.comp_def]
  have hmem : other ∈ children := by simp [children]
  have hne : children ≠ [] := List.ne_nil_of_mem hmem
  obtain ⟨hregroup, hgroup, hskeleton⟩ :=
    formula_regroup hgrouping hconnective hformulas hshapes
  refine ⟨_, hgroup, hskeleton, ?_, ?_⟩
  · rw [meaning_regroup hregroup hconnective]
    have hexists : ∀ child ∈ children, ∃ b, child.meaning blank = some b := fun child hchild =>
      ((hformulas child hchild).exists_meaning blank).imp fun _ hb => hb.1
    cases connective with
    | and =>
      have hall : ∀ child ∈ children, child.meaning blank = some true := by
        intro child hchild
        rcases hcases child hchild with rfl | ⟨origin, horigin, rfl⟩
        · exact hmeaning
        · exact meaning_paint_true horigin
      obtain ⟨v, hvalue, hv⟩ : ∃ v, (readAllInto blank .and children {}).value = some v ∧ _ :=
        value_readAllInto hformulas hexists hne
      rw [hvalue, hv hall]
    | or =>
      have htruth : ∀ child ∈ children,
          child.meaning blank = some (child.meaning blank == some true) :=
        fun child hchild => eq_some_beq_true (hexists child hchild)
      rw [value_readAllInto_or htruth hne]
      exact congrArg some (List.any_eq_true.mpr ⟨other, hmem, by simp [hmeaning]⟩)
  · rw [holds_regroup hne hconnective]
    cases connective with
    | and =>
      rw [if_pos rfl]
      exact List.all_eq_false.mpr ⟨other, hmem, by simp [hholds]⟩
    | or =>
      rw [if_neg (by simp)]
      refine List.any_eq_false.mpr fun child hchild => ?_
      rcases hcases child hchild with rfl | ⟨origin, horigin, rfl⟩
      · simp [hholds]
      · exact Bool.eq_false_iff.mp (formula_paint false horigin).2

/-- In a shape where an `or` group stands behind another child of an `and` group, there is a formula
that is true of the record without members, but is not when it is read plainly. -/
theorem exists_misread (hformula : Formula strict filter) (hlead : ¬ filter.OrsLead) :
    ∃ other, Misread strict filter other := by
  induction hformula with
  | leaf hchildren _ _ =>
    rw [orsLead_iff, hchildren] at hlead
    simp at hlead
  | @group filter connective hgrouping hconnective hchildren ih =>
    by_cases hbelow : ∀ child ∈ filter.children, child.OrsLead
    · have hhere : ¬ (filter.connective = some Connective.and.token →
          ∀ child ∈ filter.children.tail, child.isOrGroup = false) :=
        fun hhere => hlead (orsLead_iff.mpr ⟨hhere, hbelow⟩)
      push Not at hhere
      obtain ⟨hand, late, hlate, hor⟩ := hhere
      obtain ⟨first, others, hsplit⟩ :=
        List.exists_cons_of_ne_nil (children_ne_nil_of_isGrouping hgrouping)
      rw [hsplit, List.tail_cons] at hlate
      obtain ⟨before, after, rfl⟩ := List.append_of_mem hlate
      have hsplit : filter.children = (first :: before) ++ late :: after := hsplit
      exact exists_misread_here hgrouping (readConnective_eq_ok_iff.mpr hand) hsplit hchildren
        (List.cons_ne_nil _ _) (by simpa using hor)
    · push Not at hbelow
      obtain ⟨child, hchild, hlead⟩ := hbelow
      obtain ⟨other, hmisread⟩ := ih child hchild hlead
      obtain ⟨before, after, hsplit⟩ := List.append_of_mem hchild
      exact exists_misread_below hgrouping hconnective hsplit hchildren hmisread

/-! ## Compiled formulas -/

/-- Every node below a formula is one. -/
theorem isFormula_iff : filter.IsFormula ↔
    (if filter.children = [] then filter.hasCondition = true else filter.isGrouping = true) ∧
      ∀ child ∈ filter.children, child.IsFormula :=
  forall_mem_flatten

/-- A formula that has been compiled is one as the compiler accepts it. -/
theorem formula_of_compileFrom {slot next : Nat} {expr : Expr} (hformula : filter.IsFormula)
    (hcompile : compileFrom strict filter slot = .ok (expr, next)) : Formula strict filter := by
  refine (compileFrom_ok_induction
    (P := fun filter _ _ => filter.IsFormula → Formula strict filter)
    (Q := fun filters _ _ => ∀ child ∈ filters, child.IsFormula → Formula strict child)
    ?leaf ?group ?nil ?cons hcompile).1 hformula
  case leaf =>
    intro filter slot condition hchildren hown hformula
    have hnode := (isFormula_iff.mp hformula).1
    rw [if_pos hchildren] at hnode
    exact .leaf hchildren hnode (exists_ownCondition hown 0)
  case group =>
    intro filter slot condition connective exprs hchildren _ hconnective ih hformula
    obtain ⟨hnode, hbelow⟩ := isFormula_iff.mp hformula
    rw [if_neg hchildren] at hnode
    exact .group hnode hconnective fun child hchild => ih child hchild (hbelow child hchild)
  case nil => exact fun _ _ hchild => absurd hchild List.not_mem_nil
  case cons => exact fun _ _ _ _ _ hfirst hrest => List.forall_mem_cons.mpr ⟨hfirst, hrest⟩

/-- What is compiled under limits from a formula is one as the compiler accepts it. -/
theorem formula_of_compile {limits : Limits} {predicate : Predicate} (hformula : filter.IsFormula)
    (hcompile : filter.compile limits = .ok predicate) : Formula limits.strictPaths filter := by
  obtain ⟨_, next, hroot, _⟩ := compile_eq_ok hcompile
  exact formula_of_compileFrom hformula hroot

/-- A formula as the compiler accepts it is a formula. -/
theorem Formula.isFormula (hformula : Formula strict filter) : filter.IsFormula := by
  induction hformula with
  | leaf hchildren hcondition _ =>
    refine isFormula_iff.mpr ⟨by rwa [if_pos hchildren], fun child hchild => ?_⟩
    rw [hchildren] at hchild
    cases hchild
  | group hgrouping _ _ ih =>
    refine isFormula_iff.mpr ⟨?_, ih⟩
    rwa [if_neg (children_ne_nil_of_isGrouping hgrouping)]

/-- A formula as the compiler accepts it is compiled from any slot. -/
theorem Formula.exists_compileFrom (hformula : Formula strict filter) (slot : Nat) :
    ∃ result, compileFrom strict filter slot = .ok result := by
  induction hformula generalizing slot with
  | leaf hchildren _ hown =>
    obtain ⟨_, hown⟩ := hown
    obtain ⟨condition, hown⟩ := exists_ownCondition hown slot
    rw [compileFrom_of_children_eq_nil hchildren, hown]
    exact ⟨_, rfl⟩
  | @group filter connective hgrouping hconnective hchildren ih =>
    have hall : ∀ slot, ∃ result, compileAllFrom strict filter.children slot = .ok result := by
      refine forall_mem_induction (Q := fun filters =>
        ∀ slot, ∃ result, compileAllFrom strict filters slot = .ok result) ?_ ?_ ih
      · exact fun slot => ⟨_, rfl⟩
      · intro child filters hchild hrest slot
        obtain ⟨⟨expr, middle⟩, hchild⟩ := hchild slot
        obtain ⟨⟨exprs, next⟩, hrest⟩ := hrest middle
        refine ⟨(expr :: exprs, next), ?_⟩
        rw [compileAllFrom, hchild]
        exact bind_eq_ok_iff.mpr ⟨_, rfl, bind_eq_ok_iff.mpr ⟨_, hrest, rfl⟩⟩
    obtain ⟨⟨exprs, next⟩, hexprs⟩ := hall (slot + 1)
    have hown : ownCondition strict filter slot = .ok none := if_pos hgrouping
    rw [compileFrom_of_children_ne_nil (children_ne_nil_of_isGrouping hgrouping), hown, hconnective,
      hexprs]
    exact ⟨_, rfl⟩

/-- Formulas of one shape are compiled under the same limits. -/
theorem Formula.exists_compile {limits : Limits} {predicate : Predicate}
    (hformula : Formula limits.strictPaths other) (hshape : other.skeleton = filter.skeleton)
    (hcompile : filter.compile limits = .ok predicate) :
    ∃ result, other.compile limits = .ok result := by
  obtain ⟨hsize, _⟩ := compile_eq_ok hcompile
  have hother : other.checkSize limits = .ok () := by
    rw [← hsize, checkSize, checkSize, ← depth_skeleton other, ← count_skeleton other, hshape,
      depth_skeleton, count_skeleton]
  obtain ⟨⟨expr, next⟩, hroot⟩ := hformula.exists_compileFrom 0
  rw [compile, hother]
  exact ⟨_, bind_eq_ok_iff.mpr ⟨(), rfl, bind_eq_ok_iff.mpr ⟨_, hroot, rfl⟩⟩⟩

/-- A formula that is true of a record when it is read plainly matches this record. The converse is
true of all formulas of one shape if and only if no `or` group stands behind another child of an
`and` group. -/
theorem accepts_eq_holds_iff_orsLead {limits : Limits} {predicate : Predicate}
    (hformula : filter.IsFormula) (hcompile : filter.compile limits = .ok predicate) :
    (∀ record, filter.holds record = true → predicate.accepts record = true) ∧
      (filter.OrsLead ↔ ∀ (other : Filter) (result : Predicate), other.IsFormula →
        other.skeleton = filter.skeleton → other.compile limits = .ok result →
        ∀ record, result.accepts record = other.holds record) := by
  have hcompiled := formula_of_compile hformula hcompile
  refine ⟨fun record hholds => ?_, fun hlead other result hformula' hshape hcompile' record => ?_,
    fun hplain => ?_⟩
  · obtain ⟨b, hmeaning, hb⟩ := hcompiled.exists_meaning record
    rw [accepts_eq_meaning hcompile, hmeaning]
    exact hb hholds
  · have hother : other.OrsLead := by
      rwa [← orsLead_skeleton, hshape, orsLead_skeleton]
    rw [accepts_eq_meaning hcompile',
      (formula_of_compile hformula' hcompile').meaning_eq_holds hother record]
    rfl
  · by_contra hlead
    obtain ⟨other, hother, hshape, hmeaning, hholds⟩ := exists_misread hcompiled hlead
    obtain ⟨result, hresult⟩ := hother.exists_compile hshape hcompile
    have haccepts := hplain other result hother.isFormula hshape hresult blank
    rw [accepts_eq_meaning hresult, hmeaning, hholds] at haccepts
    cases haccepts

/-- An `or` group behind a condition under `and`: the condition alone is enough for a record to
match. -/
theorem accepts_ne_holds_late_or :
    let filter := group "and" [leaf "b" "eq" |>.withValue "1",
      group "or" [leaf "c" "eq" |>.withValue "1", leaf "d" "eq" |>.withValue "1"]]
    let record : Record := .object [("b", .string "1"), ("c", .string "0"), ("d", .string "0")]
    filter.IsFormula ∧ filter.holds record = false ∧
      ∃ predicate, filter.compile {} = .ok predicate ∧ predicate.accepts record = true := by
  intro filter record
  exact ⟨by decide, by decide, _, rfl, by decide⟩

/-- With the `or` group in front, the same formula is read plainly. -/
theorem accepts_eq_holds_leading_or :
    let filter := group "and" [
      group "or" [leaf "c" "eq" |>.withValue "1", leaf "d" "eq" |>.withValue "1"],
      leaf "b" "eq" |>.withValue "1"]
    filter.IsFormula ∧ filter.OrsLead ∧
      ∃ predicate, filter.compile {} = .ok predicate ∧
        ∀ record, predicate.accepts record = filter.holds record := by
  intro filter
  have hformula : filter.IsFormula := by decide
  have hlead : filter.OrsLead := by decide
  obtain ⟨predicate, hcompile⟩ : ∃ predicate, filter.compile {} = .ok predicate := ⟨_, rfl⟩
  exact ⟨hformula, hlead, predicate, hcompile,
    (accepts_eq_holds_iff_orsLead hformula hcompile).2.mp hlead filter predicate hformula rfl
      hcompile⟩

end RecordQuery.Filter
