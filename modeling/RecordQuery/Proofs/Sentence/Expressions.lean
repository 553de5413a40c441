import RecordQuery.Proofs.Compilation
import RecordQuery.Proofs.Levels
import RecordQuery.Proofs.Sentence.Reading

/-!
# Sentences of expressions

The text of an expression is a sentence: the children of a group stand in one level, one behind the
other with the connective between them, so the operands of a child without parentheses of its own
are operands of this level. The sentence means what the expression means. Under strict paths all its
conditions are readable, so the meaning can be told from the text.
-/

namespace RecordQuery

/-- The operand of a node's condition. -/
def Operand.own : Option Condition → Operand
  | none => .blank
  | some condition => .atom condition

namespace Sentence

/-- Two sentences on one level with a connective between them. -/
def followedBy : Sentence → Connective → Sentence → Sentence
  | last operand, connective, next => .join operand connective next
  | join operand inner rest, connective, next =>
    .join operand inner (followedBy rest connective next)

theorem words_followedBy (first : Sentence) (connective : Connective) (next : Sentence) :
    (first.followedBy connective next).words =
      first.words ++ .link connective :: next.words := by
  match first with
  | last operand => rfl
  | join operand inner rest =>
    rw [followedBy, words, words, words_followedBy rest connective next]
    simp

/-- The text of two sentences has the token of the connective between blanks in it. -/
theorem text_followedBy (first : Sentence) (connective : Connective) (next : Sentence) :
    (first.followedBy connective next).text =
      first.text ++ (' ' :: connective.token.toList ++ [' '] ++ next.text) := by
  simp [text, words_followedBy, Word.text]

end Sentence

namespace Expr

mutual

/-- The sentence of an expression. -/
def sentence : Expr → Sentence
  | leaf condition => .last (.own condition)
  | group condition connective children =>
    .join (.own condition) connective (.last (.level (sentenceAll connective children)))

/-- The sentence of several expressions on one level. -/
def sentenceAll (connective : Connective) : List Expr → Sentence
  | [] => .last .blank
  | [expr] => sentence expr
  | expr :: next :: exprs =>
    (sentence expr).followedBy connective (sentenceAll connective (next :: exprs))

end

/-- The text of a node's condition is that of its operand. -/
theorem text_own (condition : Option Condition) :
    (renderOwn condition).toList = (Operand.own condition).words.flatMap Word.text := by
  cases condition <;> simp [renderOwn, Operand.own, Operand.words, Word.text]

/-- The text of an expression is that of its sentence. -/
theorem toList_render (expr : Expr) : expr.render.toList = expr.sentence.text := by
  induction expr using Expr.induction with
  | leaf condition => rw [render, text_own]; rfl
  | group condition connective children ih =>
    have hall : ((" " ++ connective.token ++ " ").intercalate (children.map render)).toList =
        (sentenceAll connective children).text := by
      refine forall_mem_induction (Q := fun exprs =>
        ((" " ++ connective.token ++ " ").intercalate (exprs.map render)).toList =
          (sentenceAll connective exprs).text) rfl ?_ ih
      intro expr exprs hfirst hrest
      cases exprs with
      | nil => simpa [sentenceAll] using hfirst
      | cons next exprs =>
        rw [sentenceAll, Sentence.text_followedBy, ← hfirst, ← hrest]
        simp [String.toList_intercalate]
    rw [render, renderAll_eq_map, sentence]
    simp only [String.toList_append, hall, text_own]
    simp [Sentence.text, Sentence.words, Operand.words, Word.text]

end Expr

/-! ## Meaning -/

namespace Clause

/-- A clause with one more operand at its front. -/
theorem value_toList_append (operand : Option Bool) (operands : List Bool) :
    value (operand.toList ++ operands) = bothOf operand (value operands) := by
  cases operand <;> cases operands <;> simp [value, bothOf]

/-- A clause with one operand at most. -/
theorem value_toList (operand : Option Bool) : value operand.toList = operand := by
  cases operand <;> simp [value]

/-- A disjunction with one more clause at its front. -/
theorem anyValue_cons (clause : List Bool) (clauses : List (List Bool)) :
    anyValue (clause :: clauses) = eitherOf (value clause) (anyValue clauses) := by
  unfold anyValue
  cases hclause : value clause with
  | none => rw [List.filterMap_cons_none hclause]; rfl
  | some a =>
    rw [List.filterMap_cons_some hclause]
    cases clauses.filterMap value <;> simp [eitherOf]

end Clause

namespace Sentence

variable (truth : Condition → Bool)

/-- Reads a sentence into a level, operand by operand. -/
def readInto : Sentence → Level → Level
  | last operand, level => level.push (operand.value truth)
  | join operand connective rest, level =>
    readInto rest ((level.push (operand.value truth)).join connective)

/-- A level has at least one clause. -/
theorem clauses_ne_nil : ∀ sentence : Sentence, sentence.clauses truth ≠ []
  | last _ => List.cons_ne_nil _ _
  | join _ .or _ => List.cons_ne_nil _ _
  | join _ .and rest => by
    rw [clauses, ne_eq, List.modifyHead_eq_nil_iff]
    exact clauses_ne_nil rest

/-- What reading makes of a level: its last clause takes up the operands of the first clause, and
the others follow. -/
theorem value_readInto (sentence : Sentence) (level : Level) {first : List Bool}
    {others : List (List Bool)} (hclauses : sentence.clauses truth = first :: others) :
    (sentence.readInto truth level).value =
      eitherOf level.closed
        (eitherOf (bothOf level.clause (Clause.value first)) (Clause.anyValue others)) := by
  match sentence with
  | last operand =>
    obtain ⟨rfl, rfl⟩ := List.cons.inj hclauses
    rw [readInto, Clause.value_toList]
    simp [Level.value, Level.push, Clause.anyValue]
  | join operand .and rest =>
    obtain ⟨operands, clauses, hrest⟩ := List.exists_cons_of_ne_nil (clauses_ne_nil truth rest)
    rw [Sentence.clauses, hrest, List.modifyHead_cons] at hclauses
    obtain ⟨rfl, rfl⟩ := List.cons.inj hclauses
    rw [readInto, value_readInto rest _ hrest, Clause.value_toList_append, ← bothOf_assoc]
    rfl
  | join operand .or rest =>
    obtain ⟨operands, clauses, hrest⟩ := List.exists_cons_of_ne_nil (clauses_ne_nil truth rest)
    rw [Sentence.clauses] at hclauses
    obtain ⟨rfl, rfl⟩ := List.cons.inj hclauses
    rw [readInto, value_readInto rest _ hrest, hrest, Clause.anyValue_cons, Clause.value_toList]
    exact eitherOf_assoc level.closed _ _

/-- Reading a sentence from left to right finds its value. -/
theorem value_eq_readInto (sentence : Sentence) :
    sentence.value truth = (sentence.readInto truth {}).value := by
  obtain ⟨first, others, hclauses⟩ := List.exists_cons_of_ne_nil (clauses_ne_nil truth sentence)
  rw [value_readInto truth sentence {} hclauses, value, hclauses, Clause.anyValue_cons]
  rfl

/-- A sentence behind another one is read into what this one has left. -/
theorem readInto_followedBy (connective : Connective) (next : Sentence) :
    ∀ (first : Sentence) (level : Level), (first.followedBy connective next).readInto truth level =
      next.readInto truth ((first.readInto truth level).join connective)
  | last _, _ => rfl
  | join _ _ rest, _ => readInto_followedBy connective next rest _

end Sentence

namespace Expr

variable (truth : Condition → Bool)

@[simp] theorem value_own (condition : Option Condition) :
    (Operand.own condition).value truth = condition.map truth := by
  cases condition <;> rfl

/-- An expression is read like its sentence. -/
theorem readInto_eq (expr : Expr) (level : Level) :
    expr.readInto truth level = expr.sentence.readInto truth level := by
  induction expr using Expr.induction generalizing level with
  | leaf condition => rw [readInto, sentence, Sentence.readInto, value_own]
  | group condition connective children ih =>
    -- Behind its connective, a sequence of children is read like the sentence of its level.
    have hall : children ≠ [] → ∀ level, readAllInto truth connective children level =
        (sentenceAll connective children).readInto truth (level.join connective) := by
      refine forall_mem_induction (Q := fun exprs => exprs ≠ [] → ∀ level,
        readAllInto truth connective exprs level =
          (sentenceAll connective exprs).readInto truth (level.join connective)) ?_ ?_ ih
      · exact fun hne => absurd rfl hne
      · intro expr exprs hfirst hrest _ level
        cases exprs with
        | nil => exact hfirst _
        | cons next exprs =>
          rw [readAllInto, hrest (List.cons_ne_nil _ _), sentenceAll,
            Sentence.readInto_followedBy, hfirst]
    have hinner : (readAllInto truth connective children {}).value =
        (Operand.level (sentenceAll connective children)).value truth := by
      change _ = (sentenceAll connective children).value truth
      rw [Sentence.value_eq_readInto]
      by_cases hne : children = []
      · rw [hne]
        rfl
      · rw [hall hne]
        cases connective <;> rfl
    rw [readInto, sentence, Sentence.readInto, Sentence.readInto, value_own, hinner]

/-- An expression means what its sentence means. -/
theorem value_eq (expr : Expr) : expr.value truth = expr.sentence.value truth := by
  rw [value, readInto_eq, Sentence.value_eq_readInto]

end Expr

end RecordQuery
