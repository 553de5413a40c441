import RecordQuery.Proofs.Combining
import RecordQuery.Proofs.Emptiness

/-!
# Children without conditions

A child without conditions leaves no operand on the level of its siblings, but if it is an `or`
group it leaves its connective. Among siblings under `and` this closes a clause. Dropping such a
child changes nothing, unless it stands between two operands that are in one clause without it.
-/

namespace RecordQuery

namespace Expr

/-- What is to be seen on a level: an operand, or the `or` between two clauses. -/
inductive Mark where
  | operand
  | bar
  deriving Repr, DecidableEq

/-- The mark that an operand leaves, if it is there. -/
def operandMarks (present : Bool) : List Mark :=
  if present then [.operand] else []

/-- The marks that a connective leaves. -/
def connectiveMarks : Connective → List Mark
  | .and => []
  | .or => [.bar]

/-- The marks that an expression leaves on its level: of its condition, of its connective, and of
its children together. -/
def marks : Expr → List Mark
  | leaf condition => operandMarks condition.isSome
  | group condition connective children =>
    operandMarks condition.isSome ++ connectiveMarks connective ++ operandMarks (!areEmpty children)

/-- Whether an expression joins children by `or`. -/
def isOrGroup : Expr → Bool
  | group _ .or _ => true
  | _ => false

/-- The node at a place: the child at the first position, and then below it. -/
def at? : List Nat → Expr → Option Expr
  | [], expr => some expr
  | position :: place, group _ _ children => children[position]?.bind (at? place)
  | _ :: _, leaf _ => none

/-- The expression without the child at a place, and what is below it. -/
def dropAt : List Nat → Expr → Expr
  | position :: place, group condition connective children =>
    group condition connective
      (if place = [] then children.eraseIdx position else children.modify position (dropAt place))
  | _, expr => expr

/-- Whether an `or` group at a place cuts a clause of its siblings in two: they are joined by `and`,
the last mark before the group is an operand, and so is the first one behind it. -/
def cutsAt : List Nat → Expr → Bool
  | position :: place, group _ connective children =>
    if place = [] then
      connective == .and && children[position]?.any isOrGroup &&
        ((children.take position).flatMap marks).getLast? == some .operand &&
        ((children.drop (position + 1)).flatMap marks).head? == some .operand
    else children[position]?.any (cutsAt place)
  | _, _ => false

variable {truth : Condition → Bool} {connective : Connective} {expr : Expr} {level : Level}

/-! ## Reading marks -/

/-- Expressions are read into levels. -/
theorem reads (truth : Condition → Bool) : Reads (readInto truth) (readAllInto truth) where
  node
    | leaf _ => .inl ⟨_, fun _ => rfl⟩
    | group _ _ _ => .inr ⟨_, _, _, fun _ => rfl⟩
  nil _ _ := rfl
  cons _ _ _ _ := rfl

/-- The children of a group have no value exactly if none of them has a condition. -/
theorem value_readAllInto_eq_none_iff {children : List Expr} :
    (readAllInto truth connective children {}).value = none ↔ areEmpty children = true := by
  have hgroup : (group none connective children).value truth = none ↔ _ := value_eq_none_iff _
  have hblank : (Level.join (Level.push {} none) connective) = {} := by
    cases connective <;> rfl
  rw [value, readInto, Option.map_none, hblank, Level.value_push_eq_none_iff] at hgroup
  simpa [isEmpty, Level.value, eitherOf] using hgroup

/-- An expression without conditions leaves its connective on a level, and nothing else. -/
theorem readInto_of_isEmpty (hempty : expr.isEmpty = true) (level : Level) :
    expr.readInto truth level = if expr.isOrGroup then level.join .or else level := by
  cases expr with
  | leaf condition =>
    obtain rfl : condition = none := Option.isNone_iff_eq_none.mp hempty
    exact Level.push_none level
  | group condition connective children =>
    rw [isEmpty, Bool.and_eq_true, Option.isNone_iff_eq_none] at hempty
    obtain ⟨rfl, hchildren⟩ := hempty
    rw [readInto, value_readAllInto_eq_none_iff.mpr hchildren, Option.map_none, Level.push_none,
      Level.push_none]
    cases connective <;> rfl

/-- An expression without marks leaves a level as it is. -/
theorem readInto_of_marks_eq_nil (hmarks : expr.marks = []) (level : Level) :
    expr.readInto truth level = level := by
  have hempty : expr.isEmpty = true ∧ expr.isOrGroup = false := by
    cases expr with
    | leaf condition => cases condition <;> simp_all [marks, operandMarks, isEmpty, isOrGroup]
    | group condition connective children =>
      cases condition <;> cases connective <;>
        simp_all [marks, operandMarks, connectiveMarks, isEmpty, isOrGroup]
  rw [readInto_of_isEmpty hempty.1, hempty.2]
  rfl

/-- Behind an `or`, an expression that begins with one is read as without it. -/
theorem readInto_join_or (hmarks : expr.marks.head? = some .bar) (level : Level) :
    expr.readInto truth (level.join .or) = expr.readInto truth level := by
  cases expr with
  | leaf condition => cases condition <;> cases hmarks
  | group condition connective children =>
    cases condition with
    | some condition => cases hmarks
    | none =>
      cases connective with
      | and =>
        rw [marks] at hmarks
        generalize areEmpty children = empty at hmarks
        cases empty <;> cases hmarks
      | or =>
        rw [readInto, readInto, Option.map_none, Level.push_none, Level.push_none,
          Level.join_or_join_or]

/-- The marks that have been seen on a level tell whether its open clause has an operand. -/
def Shows (level : Level) (seen : List Mark) : Prop :=
  level.clause.isSome = (seen.getLast? == some .operand)

theorem shows_push {seen : List Mark} (hshows : Shows level seen) (operand : Option Bool) :
    Shows (level.push operand) (seen ++ operandMarks operand.isSome) := by
  cases operand with
  | none => simpa [operandMarks] using hshows
  | some operand =>
    obtain ⟨b, hclause, _⟩ := Level.clause_push_some level operand
    simp [Shows, hclause, operandMarks]

theorem shows_join {seen : List Mark} (hshows : Shows level seen) (connective : Connective) :
    Shows (level.join connective) (seen ++ connectiveMarks connective) := by
  cases connective with
  | and => simpa [Level.join, connectiveMarks] using hshows
  | or => simp [Shows, Level.join, connectiveMarks]

/-- Reading an expression shows its marks behind those before. -/
theorem shows_readInto {seen : List Mark} (hshows : Shows level seen) (expr : Expr) :
    Shows (expr.readInto truth level) (seen ++ expr.marks) := by
  cases expr with
  | leaf condition =>
    rw [readInto, marks, ← Option.isSome_map (f := truth)]
    exact shows_push hshows _
  | group condition connective children =>
    have hvalue : (!areEmpty children) =
        (readAllInto truth connective children {}).value.isSome := by
      rw [Bool.eq_iff_iff, Option.isSome_iff_ne_none, Ne, value_readAllInto_eq_none_iff]
      simp
    rw [readInto, marks, hvalue, ← Option.isSome_map (f := truth), ← List.append_assoc,
      ← List.append_assoc]
    exact shows_push (shows_join (shows_push hshows _) connective) _

/-- Reading expressions under `and` shows their marks one after the other. -/
theorem shows_readAllInto (exprs : List Expr) {seen : List Mark} (hshows : Shows level seen) :
    Shows (readAllInto truth .and exprs level) (seen ++ exprs.flatMap marks) := by
  induction exprs generalizing level seen with
  | nil => simpa [readAllInto] using hshows
  | cons expr exprs ih =>
    rw [List.flatMap_cons, ← List.append_assoc]
    exact ih (shows_readInto hshows expr)

/-- What has been read of children under `and` shows their marks. -/
theorem shows_children (truth : Condition → Bool) (children : List Expr) :
    Shows (readAllInto truth .and children {}) (children.flatMap marks) := by
  have hblank : Shows {} [] := rfl
  exact shows_readAllInto children hblank

/-! ## Dropping a child -/

/-- Behind an `or`, expressions under `and` that do not begin with an operand have the value that
they have without it. -/
theorem value_readAllInto_join_or {exprs : List Expr}
    (hmarks : (exprs.flatMap marks).head? ≠ some .operand) (level : Level) :
    (readAllInto truth .and exprs (level.join .or)).value =
      (readAllInto truth .and exprs level).value := by
  induction exprs generalizing level with
  | nil => exact Level.value_join level .or
  | cons expr exprs ih =>
    have hjoin : ∀ level : Level, level.join .and = level := fun _ => rfl
    rw [readAllInto, readAllInto, hjoin, hjoin]
    cases hexpr : expr.marks with
    | nil =>
      rw [readInto_of_marks_eq_nil hexpr, readInto_of_marks_eq_nil hexpr]
      exact ih (by simpa [hexpr] using hmarks) level
    | cons mark marks =>
      cases mark with
      | bar => rw [readInto_join_or (by rw [hexpr]; rfl)]
      | operand => simp [hexpr] at hmarks

/-- A child without conditions may be dropped from its group, unless it cuts a clause in two. -/
theorem value_readAllInto_drop {before after : List Expr} {child : Expr}
    (hempty : child.isEmpty = true)
    (hcuts : ¬ (connective = .and ∧ child.isOrGroup = true ∧
      (before.flatMap marks).getLast? = some .operand ∧
      (after.flatMap marks).head? = some .operand)) :
    (readAllInto truth connective (before ++ child :: after) {}).value =
      (readAllInto truth connective (before ++ after) {}).value := by
  rw [(reads truth).append, (reads truth).append, readAllInto, readInto_of_isEmpty hempty]
  have hshows := shows_children truth before
  generalize hlevel : readAllInto truth connective before {} = level
  cases connective with
  | or =>
    -- Each sibling closes the clause before it in any case, so one more `or` is not seen.
    rw [Level.join_or_join_or, ite_self]
    cases after with
    | nil => exact Level.value_join level .or
    | cons sibling siblings => rw [readAllInto, readAllInto, Level.join_or_join_or]
  | and =>
    rw [hlevel] at hshows
    have hjoin : level.join .and = level := rfl
    rw [hjoin]
    cases hor : child.isOrGroup with
    | false => rfl
    | true =>
      rw [if_pos rfl]
      by_cases hbefore : (before.flatMap marks).getLast? = some .operand
      · exact value_readAllInto_join_or (fun hafter => hcuts ⟨rfl, hor, hbefore, hafter⟩) level
      · have hclause : level.clause = none := by
          rw [Shows, beq_false_of_ne hbefore] at hshows
          exact Option.isNone_iff_eq_none.mp (Option.isSome_eq_false_iff.mp hshows)
        have hnone : level.join .or = level := by
          obtain ⟨closed, clause⟩ := level
          obtain rfl : clause = none := hclause
          simp [Level.join]
        rw [hnone]

/-- A group is read by its condition, its connective, and the value of its children. -/
theorem readInto_group_congr {condition : Option Condition} {children others : List Expr}
    (hvalue : (readAllInto truth connective children {}).value =
      (readAllInto truth connective others {}).value) :
    readInto truth (group condition connective children) =
      readInto truth (group condition connective others) := by
  funext level
  rw [readInto, readInto, hvalue]

/-! ## Places -/

section Places

variable {condition : Option Condition} {before after : List Expr} {child : Expr} {place : List Nat}

/-- Where something stands below the root, its first position is that of a child. -/
theorem exists_children_of_at? {position : Nat}
    (hat : (expr.at? (position :: place)).any isEmpty = true) :
    ∃ condition connective before child after,
      expr = group condition connective (before ++ child :: after) ∧ before.length = position ∧
        (child.at? place).any isEmpty = true := by
  cases expr with
  | leaf condition => cases hat
  | group condition connective children =>
    rw [at?, Option.any_bind] at hat
    obtain ⟨child, hchild, hat⟩ := (Option.any_eq_true _ _).mp hat
    obtain ⟨hposition, rfl⟩ := List.getElem?_eq_some_iff.mp hchild
    refine ⟨condition, connective, children.take position, children[position],
      children.drop (position + 1), ?_, List.length_take_of_le (Nat.le_of_lt hposition), hat⟩
    rw [List.getElem_cons_drop, List.take_append_drop]

theorem dropAt_child :
    (group condition connective (before ++ child :: after)).dropAt [before.length] =
      group condition connective (before ++ after) := by
  rw [dropAt, if_pos rfl, List.eraseIdx_append_of_length_le (Nat.le_refl _), Nat.sub_self,
    List.eraseIdx_cons_zero]

theorem dropAt_below (hplace : place ≠ []) :
    (group condition connective (before ++ child :: after)).dropAt (before.length :: place) =
      group condition connective (before ++ child.dropAt place :: after) := by
  rw [dropAt, if_neg hplace, List.modify_eq_take_cons_drop (by simp)]
  simp

theorem cutsAt_child :
    (group condition connective (before ++ child :: after)).cutsAt [before.length] = true ↔
      connective = .and ∧ child.isOrGroup = true ∧
        (before.flatMap marks).getLast? = some .operand ∧
        (after.flatMap marks).head? = some .operand := by
  simp [cutsAt, and_assoc]

theorem cutsAt_below (hplace : place ≠ []) :
    (group condition connective (before ++ child :: after)).cutsAt (before.length :: place) =
      child.cutsAt place := by
  simp [cutsAt, hplace]

end Places

/-- An expression is read in the same way without a child that has no conditions, unless the child
cuts a clause in two. -/
theorem readInto_dropAt {place : List Nat} (hempty : (expr.at? place).any isEmpty = true)
    (hcuts : expr.cutsAt place = false) :
    readInto truth (expr.dropAt place) = readInto truth expr := by
  induction place generalizing expr with
  | nil => cases expr <;> rfl
  | cons position place ih =>
    obtain ⟨condition, connective, before, child, after, rfl, rfl, hchild⟩ :=
      exists_children_of_at? hempty
    by_cases hplace : place = []
    · subst hplace
      rw [dropAt_child]
      refine (readInto_group_congr (value_readAllInto_drop ?_ fun hcut => ?_)).symm
      · simpa [at?] using hchild
      · rw [cutsAt_child.mpr hcut] at hcuts
        cases hcuts
    · rw [cutsAt_below hplace] at hcuts
      rw [dropAt_below hplace]
      refine readInto_group_congr ?_
      rw [(reads truth).append, (reads truth).append, readAllInto, readAllInto, ih hchild hcuts]

end Expr

end RecordQuery
