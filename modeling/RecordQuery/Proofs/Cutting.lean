import Mathlib.Data.List.Induction
import RecordQuery.Predicate.Compile
import RecordQuery.Proofs.EmptyChildren

/-!
# Children that cut a clause

Where a child without conditions cuts a clause of its siblings in two, dropping it makes a
difference to some expression of the same shape: let what stands before it in the clause be true,
and what stands behind it be false. Around this group the other conditions are chosen so that all
hangs on it.
-/

namespace RecordQuery

/-- A truth value that is there, and is not the one, is the other. -/
theorem eq_some_of_ne {value : Option Bool} {b : Bool} (hne : value ≠ none)
    (hother : value ≠ some !b) : value = some b := by
  obtain ⟨v, rfl⟩ := Option.ne_none_iff_exists'.mp hne
  rw [Ne, Option.some_inj] at hother
  rw [Bool.eq_not_of_ne hother, Bool.not_not]

/-! ## Levels on which all hangs on what comes next -/

namespace Level

variable {level : Level} {b x : Bool} {operand own : Option Bool} {connective : Connective}

/-- A level on which nothing is known that differs from a given truth. -/
def Only (b : Bool) (level : Level) : Prop :=
  level.closed ≠ some !b ∧ level.clause ≠ some !b

/-- A level on which all hangs on the next operand: behind a connective that is still to come, if
this is an `or`. -/
def Ready (connective : Connective) (level : Level) : Prop :=
  level.closed ≠ some true ∧ level.clause ≠ some (connective == .or)

/-- A level on which all hangs on the open clause. -/
def Hangs (x : Bool) (level : Level) : Prop :=
  level.closed ≠ some true ∧ level.clause = some x

/-- A level on which all hangs on the closed clauses. -/
def Settled (x : Bool) (level : Level) : Prop :=
  level.closed = some x ∧ level.clause ≠ some true

theorem only_blank (b : Bool) : Only b {} := by simp [Only]

theorem ready_blank (connective : Connective) : Ready connective {} := by simp [Ready]

theorem Only.push (honly : Only b level) (hoperand : operand ≠ some !b) :
    Only b (level.push operand) :=
  ⟨honly.1, bothOf_ne honly.2 hoperand⟩

theorem Only.value (honly : Only b level) : level.value ≠ some !b :=
  eitherOf_ne honly.1 honly.2

theorem Only.join (honly : Only b level) (connective : Connective) :
    Only b (level.join connective) := by
  cases connective with
  | and => exact honly
  | or => exact ⟨honly.value, nofun⟩

/-- Behind clauses that do not hold, all hangs on the next operand. -/
theorem Only.ready_join_or (honly : Only false level) (connective : Connective) :
    Ready connective (level.join .or) :=
  ⟨honly.value, nofun⟩

theorem Ready.push (hready : Ready .and level) (hoperand : operand ≠ some false) :
    Ready .and (level.push operand) :=
  ⟨hready.1, bothOf_ne hready.2 hoperand⟩

/-- With the right truth of its own condition, all hangs on the children of a group. -/
theorem Ready.hangs (hready : Ready connective level) (hown : own ≠ some (connective == .or)) :
    Hangs x (((level.push own).join connective).push (some x)) := by
  have hclause : bothOf level.clause own ≠ some (connective == .or) := bothOf_ne hready.2 hown
  cases connective with
  | and => exact ⟨hready.1, bothOf_some_right hclause⟩
  | or => exact ⟨eitherOf_ne hready.1 hclause, rfl⟩

theorem Hangs.push (hhangs : Hangs x level) (hoperand : operand ≠ some false) :
    Hangs x (level.push operand) := by
  refine ⟨hhangs.1, ?_⟩
  rw [Level.push, hhangs.2, bothOf_some_left hoperand]

theorem Hangs.value (hhangs : Hangs x level) : level.value = some x := by
  rw [Level.value, hhangs.2, eitherOf_some_right hhangs.1]

theorem Hangs.join_or (hhangs : Hangs x level) : Settled x (level.join .or) :=
  ⟨hhangs.value, nofun⟩

theorem Settled.push (hsettled : Settled x level) (hoperand : operand ≠ some true) :
    Settled x (level.push operand) :=
  ⟨hsettled.1, bothOf_ne hsettled.2 hoperand⟩

theorem Settled.value (hsettled : Settled x level) : level.value = some x := by
  rw [Level.value, hsettled.1, eitherOf_some_left hsettled.2]

theorem Settled.join (hsettled : Settled x level) (connective : Connective) :
    Settled x (level.join connective) := by
  cases connective with
  | and => exact hsettled
  | or => exact ⟨hsettled.value, nofun⟩

end Level

namespace Expr

/-! ## Expressions of one shape -/

/-- A condition that is true, or false, of a record without members. -/
def probe (truth : Bool) : Condition :=
  .nullTest "a" !truth

/-- Whether a condition holds of the record without members. -/
def bare : Condition → Bool :=
  Condition.holds (.object []) []

@[simp] theorem bare_probe (truth : Bool) : bare (probe truth) = truth := by
  cases truth <;> rfl

/-- The condition of a node, with a given truth. -/
def mask (truth : Bool) (condition : Option Condition) : Option Condition :=
  condition.map fun _ => probe truth

mutual

/-- The expression with the same condition in the place of every one of its own. -/
def paint (truth : Bool) : Expr → Expr
  | leaf condition => leaf (mask truth condition)
  | group condition connective children =>
    group (mask truth condition) connective (paintAll truth children)

/-- Several expressions with the same condition in the place of every one of their own. -/
def paintAll (truth : Bool) : List Expr → List Expr
  | [] => []
  | expr :: exprs => paint truth expr :: paintAll truth exprs

end

/-- Two expressions that differ in nothing but what their conditions say. -/
def Alike (expr other : Expr) : Prop :=
  expr.paint true = other.paint true

/-- Expressions that are pairwise alike. -/
def AllAlike (exprs others : List Expr) : Prop :=
  exprs.map (paint true) = others.map (paint true)

variable {connective : Connective} {condition : Option Condition} {expr other : Expr}
  {exprs others children : List Expr} {level : Level} {b x : Bool}

@[simp] theorem paintAll_eq_map (truth : Bool) (exprs : List Expr) :
    paintAll truth exprs = exprs.map (paint truth) := by
  induction exprs with
  | nil => rfl
  | cons expr exprs ih => rw [paintAll, ih, List.map_cons]

@[simp] theorem mask_mask (truth first : Bool) (condition : Option Condition) :
    mask truth (mask first condition) = mask truth condition := by
  cases condition <;> rfl

@[simp] theorem isSome_mask (truth : Bool) (condition : Option Condition) :
    (mask truth condition).isSome = condition.isSome := by
  cases condition <;> rfl

@[simp] theorem isNone_mask (truth : Bool) (condition : Option Condition) :
    (mask truth condition).isNone = condition.isNone := by
  cases condition <;> rfl

/-- A masked condition is not true if it is masked as false, and not false if it is masked as true.
-/
theorem map_bare_mask_ne (truth : Bool) (condition : Option Condition) :
    (mask truth condition).map bare ≠ some !truth := by
  cases condition <;> simp [mask]

/-- Nothing is left of a coat of paint under another one. -/
@[simp] theorem paint_paint (truth first : Bool) (expr : Expr) :
    (expr.paint first).paint truth = expr.paint truth := by
  induction expr using Expr.induction with
  | leaf condition => simp [paint]
  | group condition connective children ih =>
    simp only [paint, mask_mask, paintAll_eq_map, List.map_map]
    congr 1
    exact List.map_congr_left ih

theorem alike_paint (truth : Bool) (expr : Expr) : Alike (expr.paint truth) expr :=
  paint_paint true truth expr

theorem allAlike_paint (truth : Bool) (exprs : List Expr) :
    AllAlike (exprs.map (paint truth)) exprs := by
  rw [AllAlike, List.map_map]
  exact List.map_congr_left fun expr _ => alike_paint truth expr

theorem AllAlike.cons (hfirst : Alike expr other) (hrest : AllAlike exprs others) :
    AllAlike (expr :: exprs) (other :: others) := by
  rw [AllAlike, List.map_cons, List.map_cons, hfirst, hrest]

theorem AllAlike.append {first second : List Expr} (hfirst : AllAlike exprs first)
    (hsecond : AllAlike others second) : AllAlike (exprs ++ others) (first ++ second) := by
  rw [AllAlike, List.map_append, List.map_append, hfirst, hsecond]

/-- A group is alike to one with alike children, whatever its own condition is. -/
theorem AllAlike.group (hchildren : AllAlike exprs children) (truth : Bool)
    (condition : Option Condition) (connective : Connective) :
    Alike (group (mask truth condition) connective exprs)
      (group condition connective children) := by
  rw [Alike, paint, paint, mask_mask, paintAll_eq_map, paintAll_eq_map, hchildren]

@[simp] theorem isEmpty_paint (truth : Bool) (expr : Expr) :
    (expr.paint truth).isEmpty = expr.isEmpty := by
  induction expr using Expr.induction with
  | leaf condition => simp [paint, isEmpty]
  | group condition connective children ih =>
    simp only [paint, isEmpty, isNone_mask, paintAll_eq_map, areEmpty_eq_all, List.all_map]
    congr 1
    rw [Bool.eq_iff_iff, List.all_eq_true, List.all_eq_true]
    exact forall₂_congr fun child hchild => by rw [Function.comp_apply, ih child hchild]

@[simp] theorem isOrGroup_paint (truth : Bool) (expr : Expr) :
    (expr.paint truth).isOrGroup = expr.isOrGroup := by
  rcases expr with _ | ⟨_, _ | _, _⟩ <;> rfl

@[simp] theorem marks_paint (truth : Bool) (expr : Expr) :
    (expr.paint truth).marks = expr.marks := by
  cases expr with
  | leaf condition => simp [paint, marks]
  | group condition connective children =>
    simp [paint, marks, List.all_map, Function.comp_def]

theorem flatMap_marks_paint (truth : Bool) (exprs : List Expr) :
    (exprs.map (paint truth)).flatMap marks = exprs.flatMap marks := by
  simp [List.flatMap_map]

/-- Expressions that are alike leave the same marks. -/
theorem AllAlike.flatMap_marks (halike : AllAlike exprs others) :
    exprs.flatMap marks = others.flatMap marks := by
  rw [← flatMap_marks_paint true exprs, halike, flatMap_marks_paint]

theorem AllAlike.length (halike : AllAlike exprs others) : exprs.length = others.length := by
  simpa using congrArg List.length halike

/-! ## Reading painted expressions -/

/-- On a level that is read next, nothing else becomes known than the paint tells. -/
theorem only_readAllInto (honly : ∀ child ∈ exprs, ∀ level : Level, level.Only b →
      (readInto bare (child.paint b) level).Only b) (hlevel : level.Only b) :
    (readAllInto bare connective (exprs.map (paint b)) level).Only b := by
  induction exprs generalizing level with
  | nil => exact hlevel
  | cons expr exprs ih =>
    obtain ⟨hexpr, hexprs⟩ := List.forall_mem_cons.mp honly
    exact ih hexprs (hexpr _ (hlevel.join connective))

theorem only_readInto_paint (expr : Expr) (hlevel : level.Only b) :
    (readInto bare (expr.paint b) level).Only b := by
  induction expr using Expr.induction generalizing level with
  | leaf condition => exact hlevel.push (map_bare_mask_ne b condition)
  | group condition connective children ih =>
    rw [paint, paintAll_eq_map, readInto]
    have hchildren : (readAllInto bare connective (children.map (paint b)) {}).Only b :=
      only_readAllInto (fun child hchild _ => ih child hchild) (Level.only_blank b)
    exact ((hlevel.push (map_bare_mask_ne b condition)).join connective).push hchildren.value

theorem only_readAllInto_paint (exprs : List Expr) (hlevel : level.Only b) :
    (readAllInto bare connective (exprs.map (paint b)) level).Only b :=
  only_readAllInto (fun child _ _ => only_readInto_paint child) hlevel

/-- Painted children are not false if they are painted as true, and not true if they are painted as
false. -/
theorem value_paint_ne (truth : Bool) (connective : Connective) (children : List Expr) :
    (readAllInto bare connective (children.map (paint truth)) {}).value ≠ some !truth :=
  (only_readAllInto_paint children (Level.only_blank truth)).value

/-- What is painted as false leaves a level settled. -/
theorem settled_readAllInto_paint (exprs : List Expr) (hsettled : level.Settled x) :
    (readAllInto bare connective (exprs.map (paint false)) level).Settled x := by
  induction exprs generalizing level with
  | nil => exact hsettled
  | cons expr exprs ih =>
    refine ih ?_
    cases expr with
    | leaf condition => exact (hsettled.join connective).push (map_bare_mask_ne false condition)
    | group condition inner children =>
      rw [paint, paintAll_eq_map, readInto]
      exact (((hsettled.join connective).push (map_bare_mask_ne false condition)).join inner).push
        (value_paint_ne false inner children)

/-- A level with a value has one after more has been read. -/
theorem value_readAllInto_ne_none {truth : Condition → Bool} (exprs : List Expr)
    (hvalue : level.value ≠ none) : (readAllInto truth connective exprs level).value ≠ none := by
  induction exprs generalizing level with
  | nil => exact hvalue
  | cons expr exprs ih =>
    refine ih ?_
    rw [Ne, value_readInto_eq_none_iff, Level.value_join]
    exact fun hnone => hvalue hnone.1

/-! ## Siblings that leave all to one child -/

/-- What stands before a child under `and` can be chosen so that all hangs on what comes next. -/
theorem exists_ready_and (exprs : List Expr) : ∃ others, AllAlike others exprs ∧
    (readAllInto bare .and others {}).Ready .and := by
  induction exprs using List.reverseRecOn with
  | nil => exact ⟨[], rfl, Level.ready_blank .and⟩
  | append_singleton exprs expr ih =>
    obtain ⟨others, halike, hready⟩ := ih
    cases expr with
    | leaf condition =>
      refine ⟨others ++ [leaf (mask true condition)],
        halike.append (.cons (alike_paint true (leaf condition)) rfl), ?_⟩
      rw [(reads bare).append]
      exact hready.push (map_bare_mask_ne true condition)
    | group condition connective children =>
      have hpainted := allAlike_paint true children
      cases connective with
      | and =>
        refine ⟨others ++ [group (mask true condition) .and (children.map (paint true))],
          halike.append (.cons (hpainted.group true condition .and) rfl), ?_⟩
        rw [(reads bare).append]
        exact (hready.push (map_bare_mask_ne true condition)).push
          (value_paint_ne true .and children)
      | or =>
        -- The `or` closes all that stands before, so nothing of it may hold.
        refine ⟨exprs.map (paint false) ++
            [group (mask false condition) .or (children.map (paint true))],
          (allAlike_paint false exprs).append (.cons (hpainted.group false condition .or) rfl), ?_⟩
        rw [(reads bare).append]
        have honly : (readAllInto bare .and (exprs.map (paint false)) {}).Only false :=
          only_readAllInto_paint exprs (Level.only_blank false)
        exact ((honly.push (map_bare_mask_ne false condition)).ready_join_or .and).push
          (value_paint_ne true .or children)

/-- What stands before a child can be chosen so that all hangs on the child. -/
theorem exists_ready (connective inner : Connective) (exprs : List Expr) :
    ∃ others, AllAlike others exprs ∧
      ((readAllInto bare connective others {}).join connective).Ready inner := by
  have honly : (readAllInto bare connective (exprs.map (paint false)) {}).Only false :=
    only_readAllInto_paint exprs (Level.only_blank false)
  match connective, inner with
  | .or, inner => exact ⟨_, allAlike_paint false exprs, honly.ready_join_or inner⟩
  | .and, .or => exact ⟨_, allAlike_paint false exprs, honly⟩
  | .and, .and => exact exists_ready_and exprs

/-- What stands behind a child can be chosen so that all still hangs on the child. -/
theorem exists_rest (connective : Connective) (exprs : List Expr) :
    ∃ others, AllAlike others exprs ∧ ∀ (x : Bool) (level : Level), level.Hangs x →
      (readAllInto bare connective others level).value = some x := by
  induction exprs with
  | nil => exact ⟨[], rfl, fun x level hhangs => hhangs.value⟩
  | cons expr exprs ih =>
    obtain ⟨others, halike, hvalue⟩ := ih
    cases connective with
    | or =>
      refine ⟨_, allAlike_paint false (expr :: exprs), fun x level hhangs => ?_⟩
      have hsettled : (readAllInto bare .or ((expr :: exprs).map (paint false))
          (level.join .or)).Settled x := settled_readAllInto_paint _ hhangs.join_or
      rw [List.map_cons, readAllInto, Level.join_or_join_or] at hsettled
      exact hsettled.value
    | and =>
      cases expr with
      | leaf condition =>
        refine ⟨_, .cons (alike_paint true (leaf condition)) halike, fun x level hhangs => ?_⟩
        exact hvalue x _ (hhangs.push (map_bare_mask_ne true condition))
      | group condition inner children =>
        cases inner with
        | and =>
          refine ⟨_, .cons (alike_paint true (group condition .and children)) halike,
            fun x level hhangs => ?_⟩
          rw [paint, paintAll_eq_map]
          exact hvalue x _ ((hhangs.push (map_bare_mask_ne true condition)).push
            (value_paint_ne true .and children))
        | or =>
          -- The `or` closes the clause on which all hangs; nothing may hold behind it.
          refine ⟨_, .cons ((allAlike_paint false children).group true condition .or)
            (allAlike_paint false exprs), fun x level hhangs => ?_⟩
          have hsettled := (hhangs.push (map_bare_mask_ne true condition)).join_or.push
            (value_paint_ne false .or children)
          exact (settled_readAllInto_paint exprs hsettled).value

/-! ## Expressions to which a child makes a difference -/

/-- An expression that is alike to another one, and tells whether a child stands at a place: with
the child it leaves all hanging on a true clause, and without it on a false one. -/
structure Tells (place : List Nat) (connective : Connective) (expr other : Expr) : Prop where
  alike : Alike other expr
  present : ∀ level : Level, level.Ready connective → (readInto bare other level).Hangs true
  absent : ∀ level : Level, level.Ready connective →
    (readInto bare (other.dropAt place) level).Hangs false

/-- A group tells what the value of its children tells. -/
theorem tells_group {place : List Nat} {rest : List Expr} (halike : AllAlike others children)
    (hdrop : ∀ own, (group own connective others).dropAt place = group own connective rest)
    (hpresent : (readAllInto bare connective others {}).value = some true)
    (habsent : (readAllInto bare connective rest {}).value = some false) :
    Tells place connective (group condition connective children)
      (group (mask (!(connective == .or)) condition) connective others) := by
  have hown := map_bare_mask_ne (!(connective == .or)) condition
  rw [Bool.not_not] at hown
  refine ⟨halike.group _ condition connective, fun level hready => ?_, fun level hready => ?_⟩
  · rw [readInto, hpresent]
    exact hready.hangs hown
  · rw [hdrop, readInto, habsent]
    exact hready.hangs hown

/-- Where no closed clause holds, nothing does behind an operand that is false. -/
theorem only_push_false (hclosed : level.closed ≠ some true) :
    (level.push (some false)).Only false := by
  refine ⟨hclosed, ?_⟩
  obtain ⟨closed, _ | clause⟩ := level <;> simp [Level.push, bothOf]

/-- Where no closed clause holds, nothing does behind an expression that begins with an operand and
is painted as false. -/
theorem only_readInto_of_operand (hmarks : expr.marks.head? = some .operand)
    (hclosed : level.closed ≠ some true) : (readInto bare (expr.paint false) level).Only false := by
  match expr with
  | leaf none => cases hmarks
  | leaf (some condition) => exact only_push_false hclosed
  | group (some condition) connective children =>
    rw [paint, paintAll_eq_map, readInto]
    exact ((only_push_false hclosed).join connective).push
      (value_paint_ne false connective children)
  | group none .or children => cases hmarks
  | group none .and children =>
    have hchildren : areEmpty children = false := by
      rw [marks] at hmarks
      generalize areEmpty children = empty at hmarks ⊢
      cases empty with
      | false => rfl
      | true => cases hmarks
    have hpainted : areEmpty (children.map (paint false)) = false := by
      rw [← hchildren]
      simp [List.all_map, Function.comp_def]
    have hvalue : (readAllInto bare .and (children.map (paint false)) {}).value = some false := by
      refine eq_some_of_ne ?_ (value_paint_ne false .and children)
      rw [Ne, value_readAllInto_eq_none_iff, hpainted]
      exact Bool.false_ne_true
    rw [paint, paintAll_eq_map, readInto, hvalue]
    have hnone : level.push ((mask false none).map bare) = level := Level.push_none level
    rw [hnone]
    exact only_push_false hclosed

/-- What begins with an operand and is painted as false makes a clause false if it goes on with it.
-/
theorem value_readAllInto_of_operand (hmarks : (exprs.flatMap marks).head? = some .operand)
    (hhangs : level.Hangs true) :
    (readAllInto bare .and (exprs.map (paint false)) level).value = some false := by
  have hne : (readAllInto bare .and (exprs.map (paint false)) level).value ≠ none :=
    value_readAllInto_ne_none _ (by simp [hhangs.value])
  have honly : (readAllInto bare .and (exprs.map (paint false)) level).Only false := by
    clear hne
    induction exprs with
    | nil => cases hmarks
    | cons expr exprs ih =>
      have hjoin : level.join .and = level := rfl
      rw [List.map_cons, readAllInto, hjoin]
      cases hexpr : expr.marks with
      | nil =>
        rw [readInto_of_marks_eq_nil (by rw [marks_paint, hexpr])]
        exact ih (by simpa [hexpr] using hmarks)
      | cons mark rest =>
        refine only_readAllInto_paint exprs (only_readInto_of_operand ?_ hhangs.1)
        simpa [hexpr] using hmarks
  exact eq_some_of_ne hne honly.value

/-- A child without conditions that cuts a clause in two: let what stands before it in the clause be
true, and nothing else. -/
theorem exists_values_here {before after : List Expr} {child : Expr} (hempty : child.isEmpty = true)
    (hor : child.isOrGroup = true) (hbefore : (before.flatMap marks).getLast? = some .operand)
    (hafter : (after.flatMap marks).head? = some .operand) :
    ∃ first second, AllAlike first before ∧ AllAlike second after ∧
      (readAllInto bare .and (first ++ child :: second) {}).value = some true ∧
      (readAllInto bare .and (first ++ second) {}).value = some false := by
  obtain ⟨first, hfirst, hready⟩ := exists_ready_and before
  have hhangs : (readAllInto bare .and first {}).Hangs true := by
    refine ⟨hready.1, ?_⟩
    have hshows := shows_children bare first
    rw [Shows, hfirst.flatMap_marks, hbefore, beq_self_eq_true] at hshows
    exact eq_some_of_ne (Option.isSome_iff_ne_none.mp hshows) hready.2
  refine ⟨first, after.map (paint false), hfirst, allAlike_paint false after, ?_, ?_⟩
  · rw [(reads bare).append, readAllInto, readInto_of_isEmpty hempty, if_pos hor]
    exact Level.value_of_closed ((reads bare).closed _ (Level.closed_join_or hhangs.2))
  · rw [(reads bare).append]
    exact value_readAllInto_of_operand hafter hhangs

/-- Where a child tells whether something stands below it, its siblings can be chosen so that this
is the value of them all. -/
theorem exists_values_below {place : List Nat} {inner : Connective} {child other : Expr}
    (htells : Tells place inner child other) (connective : Connective) (before after : List Expr) :
    ∃ first second, AllAlike first before ∧ AllAlike second after ∧
      (readAllInto bare connective (first ++ other :: second) {}).value = some true ∧
      (readAllInto bare connective (first ++ other.dropAt place :: second) {}).value =
        some false := by
  obtain ⟨first, hfirst, hready⟩ := exists_ready connective inner before
  obtain ⟨second, hsecond, hvalue⟩ := exists_rest connective after
  refine ⟨first, second, hfirst, hsecond, ?_, ?_⟩
  · rw [(reads bare).append, readAllInto]
    exact hvalue true _ (htells.present _ hready)
  · rw [(reads bare).append, readAllInto]
    exact hvalue false _ (htells.absent _ hready)

/-- Where a child without conditions cuts a clause in two, an expression of the same shape tells
whether it is there. -/
theorem exists_tells {place : List Nat} (hempty : (expr.at? place).any isEmpty = true)
    (hcuts : expr.cutsAt place = true) :
    ∃ connective other, Tells place connective expr other := by
  induction place generalizing expr with
  | nil => cases expr <;> cases hcuts
  | cons position place ih =>
    obtain ⟨condition, connective, before, child, after, rfl, rfl, hchild⟩ :=
      exists_children_of_at? hempty
    by_cases hplace : place = []
    · subst hplace
      obtain ⟨rfl, hor, hbefore, hafter⟩ := cutsAt_child.mp hcuts
      obtain ⟨first, second, hfirst, hsecond, hpresent, habsent⟩ :=
        exists_values_here (by simpa [at?] using hchild) hor hbefore hafter
      refine ⟨.and, _, tells_group (hfirst.append (.cons rfl hsecond)) (fun own => ?_) hpresent
        habsent⟩
      rw [← hfirst.length, dropAt_child]
    · rw [cutsAt_below hplace] at hcuts
      obtain ⟨inner, other, htells⟩ := ih hchild hcuts
      obtain ⟨first, second, hfirst, hsecond, hpresent, habsent⟩ :=
        exists_values_below htells connective before after
      refine ⟨connective, _, tells_group (hfirst.append (.cons htells.alike hsecond))
        (fun own => ?_) hpresent habsent⟩
      rw [← hfirst.length, dropAt_below hplace]

/-! ## The exact condition -/

/-- What stands at a place has conditions or none in all expressions that are alike. -/
theorem any_isEmpty_at?_paint (truth : Bool) (expr : Expr) (place : List Nat) :
    ((expr.paint truth).at? place).any isEmpty = (expr.at? place).any isEmpty := by
  induction place generalizing expr with
  | nil => simp [at?]
  | cons position place ih =>
    cases expr with
    | leaf condition => rfl
    | group condition connective children =>
      simp only [paint, paintAll_eq_map, at?, List.getElem?_map, Option.any_bind]
      cases children[position]? with
      | none => rfl
      | some child => exact ih child

/-- Whether a clause is cut is seen at the shape. -/
theorem cutsAt_paint (truth : Bool) (expr : Expr) (place : List Nat) :
    (expr.paint truth).cutsAt place = expr.cutsAt place := by
  induction place generalizing expr with
  | nil => cases expr <;> rfl
  | cons position place ih =>
    cases expr with
    | leaf condition => rfl
    | group condition connective children =>
      simp only [paint, paintAll_eq_map, cutsAt, List.getElem?_map, ← List.map_take,
        ← List.map_drop, flatMap_marks_paint]
      cases children[position]? with
      | none => rfl
      | some child => simp [ih child]

/-- A child without conditions can be dropped from all expressions of a shape, such that every
record matches as before, if and only if it does not cut a clause of its siblings in two. -/
theorem accepts_dropAt_iff_cutsAt {place : List Nat}
    (hempty : (expr.at? place).any isEmpty = true) :
    (∀ other : Expr, other.Alike expr → ∀ parameters record,
      Predicate.accepts ⟨other.dropAt place, parameters⟩ record =
        Predicate.accepts ⟨other, parameters⟩ record) ↔ expr.cutsAt place = false := by
  constructor
  · intro hdrop
    by_contra hcuts
    obtain ⟨connective, other, htells⟩ := exists_tells hempty (eq_true_of_ne_false hcuts)
    have haccepts := hdrop other htells.alike [] (.object [])
    have hpresent := (htells.present {} (Level.ready_blank connective)).value
    have habsent := (htells.absent {} (Level.ready_blank connective)).value
    change ((readInto bare (other.dropAt place) {}).value).getD true =
      ((readInto bare other {}).value).getD true at haccepts
    rw [hpresent, habsent] at haccepts
    cases haccepts
  · intro hcuts other halike parameters record
    have hother : other.cutsAt place = false := by
      rwa [← cutsAt_paint true, halike, cutsAt_paint]
    have hplace : (other.at? place).any isEmpty = true := by
      rwa [← any_isEmpty_at?_paint true, halike, any_isEmpty_at?_paint]
    rw [Predicate.accepts, Predicate.accepts, value, value, readInto_dropAt hplace hother]

/-- An `or` group whose only node has no value, between two conditions under `and`: with the group
the first condition is enough for a record to match, and without it both are needed. -/
theorem accepts_dropAt_ne_between :
    let filter := Filter.group "and" [Filter.leaf "b" "eq" |>.withValue "1",
      Filter.group "or" [Filter.leaf "c" "eq"], Filter.leaf "d" "eq" |>.withValue "1"]
    let record : Record := .object [("b", .string "1"), ("d", .string "0")]
    ∃ predicate, filter.compile {} = .ok predicate ∧
      (predicate.expr.at? [1]).any isEmpty = true ∧ predicate.accepts record = true ∧
      Predicate.accepts ⟨predicate.expr.dropAt [1], predicate.parameters⟩ record = false := by
  intro filter record
  exact ⟨_, rfl, by decide, by decide, by decide⟩

/-- In front of the two conditions the group can be dropped, whatever they are. -/
theorem accepts_dropAt_leading :
    let expr := group none .and [group none .or [leaf none], leaf (some (.compare "b" .equal 3)),
      leaf (some (.compare "d" .equal 4))]
    (expr.at? [0]).any isEmpty = true ∧ ∀ other : Expr, other.Alike expr →
      ∀ parameters record, Predicate.accepts ⟨other.dropAt [0], parameters⟩ record =
        Predicate.accepts ⟨other, parameters⟩ record := by
  intro expr
  have hempty : (expr.at? [0]).any isEmpty = true := by decide
  exact ⟨hempty, (accepts_dropAt_iff_cutsAt hempty).mpr (by decide)⟩

end Expr

end RecordQuery
