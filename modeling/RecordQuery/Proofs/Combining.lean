import Mathlib.Data.List.ReduceOption
import RecordQuery.Proofs.Levels

/-!
# Combining operands

Operands that may be absent, combined by a connective: absent ones are left out. This is what a
parenthesised list of operands means, and a level comes to the same if its operands are read one by
one with the connective between them. Expressions and filters are read into levels in one way, of
which the laws are told here for both.
-/

namespace RecordQuery

namespace Connective

variable {connective : Connective}

/-- What operands come to under a connective: all of those that are there, or some of them. Nothing
comes of none. -/
def combine (connective : Connective) (operands : List (Option Bool)) : Option Bool :=
  match connective, operands.reduceOption with
  | _, [] => none
  | .and, present => some (present.all id)
  | .or, present => some (present.any id)

/-- Two operands under a connective. -/
def pair : Connective → Option Bool → Option Bool → Option Bool
  | .and => bothOf
  | .or => eitherOf

@[simp] theorem combine_nil : connective.combine [] = none := by
  cases connective <;> rfl

/-- The first operand is combined with what the others come to. -/
theorem combine_cons (operand : Option Bool) (operands : List (Option Bool)) :
    connective.combine (operand :: operands) =
      connective.pair operand (connective.combine operands) := by
  cases operand with
  | none => cases connective <;> rfl
  | some a =>
    unfold combine pair
    rw [List.reduceOption_cons_of_some]
    cases operands.reduceOption <;> cases connective <;> simp [bothOf, eitherOf]

@[simp] theorem pair_none (operand : Option Bool) : connective.pair operand none = operand := by
  cases connective with
  | and => exact bothOf_none operand
  | or => exact eitherOf_none operand

@[simp] theorem combine_singleton (operand : Option Bool) :
    connective.combine [operand] = operand := by
  rw [combine_cons, combine_nil, pair_none]

theorem combine_pair (first second : Option Bool) :
    connective.combine [first, second] = connective.pair first second := by
  rw [combine_cons, combine_singleton]

/-- Two operands come to nothing only if neither is there. -/
theorem pair_eq_none_iff {first second : Option Bool} :
    connective.pair first second = none ↔ first = none ∧ second = none := by
  cases connective <;> cases first <;> cases second <;> simp [pair, bothOf, eitherOf]

/-- Operands come to nothing only if none of them is there. -/
theorem combine_eq_none_iff {operands : List (Option Bool)} :
    connective.combine operands = none ↔ ∀ operand ∈ operands, operand = none := by
  induction operands with
  | nil => simp
  | cons operand operands ih =>
    rw [combine_cons, pair_eq_none_iff, ih, List.forall_mem_cons]

/-- Operands that are all there are all true under `and`, and some of them is under `or`. -/
theorem combine_map_some {α : Type} (truth : α → Bool) {items : List α} (hne : items ≠ []) :
    connective.combine (items.map fun a => some (truth a)) =
      some (if connective = .and then items.all truth else items.any truth) := by
  induction items with
  | nil => exact absurd rfl hne
  | cons a items ih =>
    rw [List.map_cons, combine_cons]
    by_cases hnil : items = []
    · subst hnil
      cases connective <;> simp
    · rw [ih hnil]
      cases connective <;> simp [pair, bothOf, eitherOf]

/-- Operands under `or` are true exactly if one of them is. -/
theorem combine_or_eq_true_iff {operands : List (Option Bool)} :
    Connective.or.combine operands = some true ↔ some true ∈ operands := by
  induction operands with
  | nil => simp
  | cons operand operands ih =>
    rw [combine_cons, pair, eitherOf_eq_true_iff, ih, List.mem_cons, eq_comm]

end Connective

namespace Level

variable {level : Level} {connective : Connective}

/-- Two operands in one clause count as their conjunction. -/
theorem push_push (level : Level) (first second : Option Bool) :
    (level.push first).push second = level.push (bothOf first second) := by
  simp only [push, bothOf_assoc]

/-- On a level that has not begun, two operands come to what they are under the connective between
them. -/
theorem value_push_join_push (first second : Option Bool) :
    (((push {} first).join connective).push second).value = connective.pair first second := by
  cases connective with
  | and =>
    rw [join, push_push]
    rfl
  | or => rfl

/-- Behind an `or`, two operands are one operand of the level. -/
theorem value_join_or_push_join_push (level : Level) (first second : Option Bool) :
    ((((level.join .or).push first).join connective).push second).value =
      eitherOf level.value (connective.pair first second) := by
  cases connective with
  | and =>
    rw [join, push_push]
    rfl
  | or => exact eitherOf_assoc level.value first second

end Level

/-! ## Reading nodes -/

/-- How nodes of some kind are read into a level. -/
structure Reads {α : Type} (read : α → Level → Level)
    (readAll : Connective → List α → Level → Level) : Prop where
  /-- A node is read as its condition or, if it is a group, as its condition and its children with
  the connective between the two. -/
  node (a : α) : (∃ own, ∀ level, read a level = level.push own) ∨
    ∃ own connective inner, ∀ level, read a level = ((level.push own).join connective).push inner
  nil (connective : Connective) (level : Level) : readAll connective [] level = level
  /-- Several nodes are read one after the other, each of them behind the connective. -/
  cons (connective : Connective) (a : α) (others : List α) (level : Level) :
    readAll connective (a :: others) level =
      readAll connective others (read a (level.join connective))

namespace Reads

variable {α : Type} {read : α → Level → Level} {readAll : Connective → List α → Level → Level}
  {connective : Connective} {nodes : List α}

/-- Nodes on one level are read one after the other. -/
theorem append (hreads : Reads read readAll) (first second : List α) (level : Level) :
    readAll connective (first ++ second) level =
      readAll connective second (readAll connective first level) := by
  induction first generalizing level with
  | nil => rw [List.nil_append, hreads.nil]
  | cons a first ih => rw [List.cons_append, hreads.cons, hreads.cons, ih]

/-- What is read next does not change that one of the closed clauses holds. -/
theorem closed (hreads : Reads read readAll) (nodes : List α) {level : Level}
    (hclosed : level.closed = some true) :
    (readAll connective nodes level).closed = some true := by
  induction nodes generalizing level with
  | nil => rwa [hreads.nil]
  | cons a nodes ih =>
    rw [hreads.cons]
    refine ih ?_
    have hjoin : (level.join connective).closed = some true := Level.closed_join hclosed
    rcases hreads.node a with ⟨own, hread⟩ | ⟨own, inner, children, hread⟩
    · rw [hread]
      exact hjoin
    · rw [hread]
      exact Level.closed_join hjoin

/-- Behind an `or`, a node counts as one operand. -/
theorem value_join_or (hreads : Reads read readAll) (a : α) (level : Level) :
    (read a (level.join .or)).value = eitherOf level.value (read a {}).value := by
  rcases hreads.node a with ⟨own, hread⟩ | ⟨own, connective, inner, hread⟩
  · rw [hread, hread, Level.value_push_join_or]
    rfl
  · rw [hread, hread, Level.value_join_or_push_join_push, Level.value_push_join_push]

/-- Nodes under `or` come to what they mean one by one, whatever they are. -/
theorem value_or (hreads : Reads read readAll) (nodes : List α) (level : Level) :
    (readAll .or nodes level).value =
      eitherOf level.value (Connective.or.combine (nodes.map fun a => (read a {}).value)) := by
  induction nodes generalizing level with
  | nil => simp [hreads.nil]
  | cons a nodes ih =>
    rw [hreads.cons, ih, hreads.value_join_or, List.map_cons, Connective.combine_cons,
      eitherOf_assoc]
    rfl

/-- Nodes under `and`, each of which is read as one operand, stay in one clause. -/
theorem push_and (hreads : Reads read readAll)
    (hpush : ∀ a ∈ nodes, ∀ level, read a level = level.push (read a {}).value) (level : Level) :
    readAll .and nodes level =
      level.push (Connective.and.combine (nodes.map fun a => (read a {}).value)) := by
  induction nodes generalizing level with
  | nil => rw [hreads.nil, List.map_nil, Connective.combine_nil, Level.push_none]
  | cons a nodes ih =>
    obtain ⟨hfirst, hpush⟩ := List.forall_mem_cons.mp hpush
    have hjoin : level.join .and = level := rfl
    rw [hreads.cons, hjoin, hfirst, ih hpush, Level.push_push, List.map_cons,
      Connective.combine_cons]
    rfl

end Reads

end RecordQuery
