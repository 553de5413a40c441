import RecordQuery.Proofs.PathText
import RecordQuery.Predicate.Matching

/-!
# Sentences

The grammar of the rendered language. A level is a sequence of operands with connectives between
them; an operand is empty, a condition, or a level in parentheses. A sentence is a level as a tree
of this grammar. What a sentence means is said of the tree alone, without regard to an expression
from which its text may have come.
-/

namespace RecordQuery

mutual

/-- What stands between two connectives. -/
inductive Operand where
  /-- Nothing at all. -/
  | blank
  /-- A condition. -/
  | atom (condition : Condition)
  /-- A level in parentheses. -/
  | level (inner : Sentence)

/-- The operands of a level and the connectives between them. -/
inductive Sentence where
  | last (operand : Operand)
  | join (operand : Operand) (connective : Connective) (rest : Sentence)

end

/-- A piece of a text: a parenthesis, a connective with its blanks, or a condition. -/
inductive Word where
  | opening
  | closing
  | link (connective : Connective)
  | atom (condition : Condition)
  deriving Repr, DecidableEq

/-- The text of a word. -/
def Word.text : Word → List Char
  | opening => ['(']
  | closing => [')']
  | link connective => ' ' :: connective.token.toList ++ [' ']
  | atom condition => condition.render.toList

mutual

/-- The words of an operand. -/
def Operand.words : Operand → List Word
  | .blank => []
  | .atom condition => [.atom condition]
  | .level inner => .opening :: Sentence.words inner ++ [.closing]

/-- The words of a sentence. -/
def Sentence.words : Sentence → List Word
  | .last operand => Operand.words operand
  | .join operand connective rest =>
    Operand.words operand ++ .link connective :: Sentence.words rest

end

/-- The text of a sentence. -/
def Sentence.text (sentence : Sentence) : List Char :=
  sentence.words.flatMap Word.text

/-! ## Which conditions can be read -/

/-- Whether a field is a path. -/
def isPath (field : List Char) : Bool :=
  (Path.read? field).isSome

/-- A condition as a text can show it: its field is a path, and its operator is one of its kind. -/
def Condition.Readable : Condition → Prop
  | compare field op _ => isPath field.toList = true ∧ op.kind = .comparison
  | nullTest field _ => isPath field.toList = true
  | method field op _ => isPath field.toList = true ∧ op.kind = .method

/-- A word is readable if it is no condition, or a readable one. -/
def Word.Readable : Word → Prop
  | atom condition => condition.Readable
  | _ => True

/-- A sentence of the language: all its conditions are readable. -/
def Sentence.Readable (sentence : Sentence) : Prop :=
  ∀ word ∈ sentence.words, word.Readable

/-! ## What a sentence means -/

/-- The conjunction of the operands of a clause, if it has any. -/
def Clause.value : List Bool → Option Bool
  | [] => none
  | operands => some (operands.all id)

/-- The disjunction of those clauses that have an operand, if there are any. -/
def Clause.anyValue (clauses : List (List Bool)) : Option Bool :=
  match clauses.filterMap Clause.value with
  | [] => none
  | values => some (values.any id)

mutual

/-- Whether an operand holds, for given truths of conditions. The empty operand, and a level without
any condition, are absent. -/
def Operand.value (truth : Condition → Bool) : Operand → Option Bool
  | .blank => none
  | .atom condition => some (truth condition)
  | .level inner => Clause.anyValue (Sentence.clauses truth inner)

/-- The clauses of a level, which are separated by `or`. Each is given by those of its operands that
are there. -/
def Sentence.clauses (truth : Condition → Bool) : Sentence → List (List Bool)
  | .last operand => [(Operand.value truth operand).toList]
  | .join operand .and rest =>
    (Sentence.clauses truth rest).modifyHead ((Operand.value truth operand).toList ++ ·)
  | .join operand .or rest =>
    (Operand.value truth operand).toList :: Sentence.clauses truth rest

end

/-- Whether a sentence holds, if it has a condition: some clause holds, and a clause holds if all
its operands do. -/
def Sentence.value (truth : Condition → Bool) (sentence : Sentence) : Option Bool :=
  Clause.anyValue (sentence.clauses truth)

end RecordQuery
