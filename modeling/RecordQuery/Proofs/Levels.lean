import Mathlib.Tactic.Common
import RecordQuery.Predicate.Matching

/-!
# Levels

Laws of what is read from left to right on one level: operands that may be absent, under `and` and
under `or`, and the clauses that `or` closes.
-/

namespace RecordQuery

/-- Operands under `and` may be grouped in any way. -/
theorem bothOf_assoc (a b c : Option Bool) : bothOf (bothOf a b) c = bothOf a (bothOf b c) := by
  cases a <;> cases b <;> cases c <;> simp [bothOf, Bool.and_assoc]

/-- Operands under `or` may be grouped in any way. -/
theorem eitherOf_assoc (a b c : Option Bool) :
    eitherOf (eitherOf a b) c = eitherOf a (eitherOf b c) := by
  cases a <;> cases b <;> cases c <;> simp [eitherOf, Bool.or_assoc]

@[simp] theorem bothOf_none (a : Option Bool) : bothOf a none = a := by
  cases a <;> rfl

@[simp] theorem eitherOf_none (a : Option Bool) : eitherOf a none = a := by
  cases a <;> rfl

section Operands

variable {a b : Option Bool} {x : Bool}

/-- Under `and` no truth appears that neither operand has. -/
theorem bothOf_ne (ha : a ≠ some x) (hb : b ≠ some x) : bothOf a b ≠ some x := by
  cases a <;> cases b <;> cases x <;> simp_all [bothOf]

/-- Under `or` no truth appears that neither operand has. -/
theorem eitherOf_ne (ha : a ≠ some x) (hb : b ≠ some x) : eitherOf a b ≠ some x := by
  cases a <;> cases b <;> cases x <;> simp_all [eitherOf]

/-- An operand that is not false changes nothing under `and`. -/
theorem bothOf_some_left (hb : b ≠ some false) : bothOf (some x) b = some x := by
  cases b <;> simp_all [bothOf]

/-- An operand behind one that is not false counts alone under `and`. -/
theorem bothOf_some_right (ha : a ≠ some false) : bothOf a (some x) = some x := by
  cases a <;> simp_all [bothOf]

/-- An operand that is not true changes nothing under `or`. -/
theorem eitherOf_some_left (hb : b ≠ some true) : eitherOf (some x) b = some x := by
  cases b <;> simp_all [eitherOf]

/-- An operand behind one that is not true counts alone under `or`. -/
theorem eitherOf_some_right (ha : a ≠ some true) : eitherOf a (some x) = some x := by
  cases a <;> simp_all [eitherOf]

/-- Under `or` one true operand is enough. -/
theorem eitherOf_eq_true_iff : eitherOf a b = some true ↔ a = some true ∨ b = some true := by
  cases a <;> cases b <;> simp [eitherOf]

end Operands

namespace Level

variable {level : Level} {connective : Connective}

/-- An absent operand changes nothing. -/
@[simp] theorem push_none (level : Level) : level.push none = level := by
  rw [push, bothOf_none]

/-- An `or` behind another one closes a clause without operands, which changes nothing. -/
theorem join_or_join_or (level : Level) : (level.join .or).join .or = level.join .or := by
  simp [join]

/-- An operand behind an `or` is a clause of its own. -/
theorem value_push_join_or (level : Level) (operand : Option Bool) :
    ((level.join .or).push operand).value = eitherOf level.value operand := rfl

/-- A connective says nothing by itself. -/
@[simp] theorem value_join (level : Level) (connective : Connective) :
    (level.join connective).value = level.value := by
  cases connective with
  | and => rfl
  | or => rw [join, value, eitherOf_none, value]

/-- A level has no value as long as all its operands are absent. -/
theorem value_push_eq_none_iff {level : Level} {operand : Option Bool} :
    (level.push operand).value = none ↔ level.value = none ∧ operand = none := by
  obtain ⟨closed, clause⟩ := level
  cases operand <;> cases clause <;> cases closed <;> simp [push, value, bothOf, eitherOf]

/-- A connective makes no clause false. -/
theorem clause_join_ne (hclause : level.clause ≠ some false) :
    (level.join connective).clause ≠ some false := by
  cases connective with
  | and => exact hclause
  | or => simp [join]

/-- With an operand the open clause is true or false, and true if the operand is and no other one of
the clause was false. -/
theorem clause_push_some (level : Level) (operand : Bool) :
    ∃ b, (level.push (some operand)).clause = some b ∧
      (level.clause ≠ some false → operand = true → b = true) := by
  obtain ⟨closed, clause⟩ := level
  cases clause with
  | none => exact ⟨operand, rfl, fun _ htrue => htrue⟩
  | some other => exact ⟨other && operand, rfl, by cases other <;> simp⟩

/-- A clause that was true when it was closed is not forgotten. -/
theorem closed_join (hclosed : level.closed = some true) :
    (level.join connective).closed = some true := by
  cases connective with
  | and => exact hclosed
  | or =>
    rw [join, hclosed]
    cases level.clause <;> simp [eitherOf]

/-- An `or` closes the clause before it. -/
theorem closed_join_or (hclause : level.clause = some true) :
    (level.join .or).closed = some true := by
  rw [join, hclause]
  cases level.closed <;> simp [eitherOf]

/-- A level with an operand in the open clause is true or false, and true if the clause is. -/
theorem exists_value_of_clause {b : Bool} (hclause : level.clause = some b) :
    ∃ v, level.value = some v ∧ (b = true → v = true) := by
  rw [value, hclause]
  cases level.closed with
  | none => exact ⟨b, rfl, id⟩
  | some a => exact ⟨a || b, rfl, by cases a <;> simp⟩

/-- A level of which a closed clause was true is true. -/
theorem value_of_closed (hclosed : level.closed = some true) : level.value = some true := by
  rw [value, hclosed]
  cases level.clause <;> simp [eitherOf]

end Level

end RecordQuery
