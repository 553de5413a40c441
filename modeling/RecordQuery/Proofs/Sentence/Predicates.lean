import RecordQuery.Proofs.Sentence.Expressions

/-!
# What the text of a predicate tells

Under strict paths the text of a compiled predicate is a sentence of the language, in one way only.
So the text and the parameters tell which records match, and the text alone tells the expression,
whatever the fields are called.
-/

namespace RecordQuery

/-- An expression of which the text can be read: its conditions are readable, and every group has
children. -/
inductive Expr.Legible : Expr → Prop
  | leaf {condition : Option Condition} (hcondition : ∀ c ∈ condition, c.Readable) :
    Legible (.leaf condition)
  | group {condition : Option Condition} {connective : Connective} {children : List Expr}
    (hcondition : ∀ c ∈ condition, c.Readable) (hne : children ≠ [])
    (hchildren : ∀ child ∈ children, Legible child) :
    Legible (.group condition connective children)

namespace Filter

/-- Under strict paths, the condition of a node is readable. -/
theorem readable_of_ownCondition {filter : Filter} {slot : Nat} {condition : Option Condition}
    (hown : ownCondition true filter slot = .ok condition) : ∀ c ∈ condition, c.Readable := by
  intro c hc
  rcases ownCondition_eq_ok hown with ⟨_, rfl⟩ | ⟨op, hread, rfl⟩
  · cases hc
  · obtain ⟨_, hpath, _⟩ := readOperator_eq_ok hread
    obtain ⟨path, hpath⟩ := hpath rfl
    have hfield : isPath filter.field.toList = true := by
      unfold Path.parse at hpath
      split at hpath
      · next hread => rw [isPath, hread]; rfl
      · cases hpath
    unfold formCondition at hc
    split at hc
    · obtain rfl := Option.some.inj hc
      exact hfield
    · next hkind =>
      split at hc
      · obtain rfl := Option.some.inj hc
        exact ⟨hfield, hkind⟩
      · cases hc
    · next hkind =>
      split at hc
      · obtain rfl := Option.some.inj hc
        exact ⟨hfield, hkind⟩
      · cases hc

/-- Under strict paths, a filter is compiled to an expression of which the text can be read. -/
theorem legible_of_compileFrom {filter : Filter} {slot next : Nat} {expr : Expr}
    (hcompile : compileFrom true filter slot = .ok (expr, next)) : expr.Legible := by
  refine (compileFrom_ok_induction
    (P := fun _ _ expr => expr.Legible)
    (Q := fun filters _ exprs =>
      (filters ≠ [] → exprs ≠ []) ∧ ∀ expr ∈ exprs, expr.Legible)
    ?leaf ?group ?nil ?cons hcompile).1
  case leaf =>
    intro filter slot condition _ hown
    exact .leaf (readable_of_ownCondition hown)
  case group =>
    intro filter slot condition connective exprs hchildren hown _ ⟨hne, hexprs⟩
    exact .group (readable_of_ownCondition hown) (hne hchildren) hexprs
  case nil =>
    intro slot
    exact ⟨fun hne => absurd rfl hne, fun _ hexpr => absurd hexpr List.not_mem_nil⟩
  case cons =>
    intro filter filters slot expr exprs hexpr ⟨_, hexprs⟩
    exact ⟨fun _ => List.cons_ne_nil _ _, List.forall_mem_cons.mpr ⟨hexpr, hexprs⟩⟩

/-- Under strict paths, the text of a predicate can be read. -/
theorem legible_of_compile {limits : Limits} {filter : Filter} {predicate : Predicate}
    (hstrict : limits.strictPaths = true) (hcompile : filter.compile limits = .ok predicate) :
    predicate.expr.Legible := by
  obtain ⟨_, next, hroot, _⟩ := compile_eq_ok hcompile
  rw [hstrict] at hroot
  exact legible_of_compileFrom hroot

end Filter

namespace Sentence

theorem readable_level {inner : Sentence} :
    (last (.level inner)).Readable ↔ inner.Readable := by
  simp [Readable, words, Operand.words, or_imp, forall_and, Word.Readable]

theorem readable_join {operand : Operand} {connective : Connective} {rest : Sentence} :
    (join operand connective rest).Readable ↔
      (∀ word ∈ operand.words, word.Readable) ∧ rest.Readable := by
  simp [Readable, words, or_imp, forall_and, Word.Readable]

theorem readable_followedBy {first next : Sentence} {connective : Connective} :
    (first.followedBy connective next).Readable ↔ first.Readable ∧ next.Readable := by
  simp [Readable, words_followedBy, or_imp, forall_and, Word.Readable]

end Sentence

namespace Expr

/-- The operand of a readable condition is readable. -/
theorem readable_own {condition : Option Condition} (hcondition : ∀ c ∈ condition, c.Readable) :
    ∀ word ∈ (Operand.own condition).words, word.Readable := by
  cases condition with
  | none => exact fun _ hword => absurd hword List.not_mem_nil
  | some c =>
    intro word hword
    obtain rfl := List.mem_singleton.mp hword
    exact hcondition c rfl

/-- The sentence of a legible expression is one of the language. -/
theorem Legible.readable_sentence {expr : Expr} (hexpr : expr.Legible) :
    expr.sentence.Readable := by
  induction hexpr with
  | leaf hcondition => exact readable_own hcondition
  | @group condition connective children hcondition hne hchildren ih =>
    have hall : (sentenceAll connective children).Readable := by
      refine forall_mem_induction (Q := fun exprs => (sentenceAll connective exprs).Readable)
        ?_ ?_ ih
      · exact fun _ hword => absurd hword List.not_mem_nil
      · intro first exprs hfirst hrest
        cases exprs with
        | nil => exact hfirst
        | cons next exprs => exact Sentence.readable_followedBy.mpr ⟨hfirst, hrest⟩
    exact Sentence.readable_join.mpr
      ⟨readable_own hcondition, Sentence.readable_level.mpr hall⟩

end Expr

/-! ## The expression behind a sentence -/

/-- The condition of an operand. -/
def Operand.condition? : Operand → Option Condition
  | .atom condition => some condition
  | _ => none

/-- The operand that stands first in a sentence. -/
def Sentence.first : Sentence → Operand
  | last operand => operand
  | join operand _ _ => operand

/-- The expressions of a level. An operand in front of a level in parentheses is the condition of a
group; any other operand that is no level is a leaf. -/
def Sentence.exprs : Sentence → List Expr
  | last operand => [.leaf operand.condition?]
  | join operand connective (last (.level inner)) =>
    [.group operand.condition? connective (exprs inner)]
  | join operand connective (join (.level inner) _ rest) =>
    .group operand.condition? connective (exprs inner) :: exprs rest
  | join operand _ rest => .leaf operand.condition? :: exprs rest

namespace Expr

@[simp] theorem condition?_own (condition : Option Condition) :
    (Operand.own condition).condition? = condition := by
  cases condition <;> rfl

/-- No sentence of an expression starts with a level. -/
theorem first_sentence_ne_level (expr : Expr) (inner : Sentence) :
    expr.sentence.first ≠ .level inner := by
  cases expr with
  | leaf condition => cases condition <;> simp [sentence, Sentence.first, Operand.own]
  | group condition connective children =>
    cases condition <;> simp [sentence, Sentence.first, Operand.own]

theorem first_followedBy (sentence next : Sentence) (connective : Connective) :
    (sentence.followedBy connective next).first = sentence.first := by
  cases sentence <;> rfl

/-- No level of expressions starts with a level. -/
theorem first_sentenceAll_ne_level (connective : Connective) (expr : Expr) (exprs : List Expr)
    (inner : Sentence) : (sentenceAll connective (expr :: exprs)).first ≠ .level inner := by
  cases exprs with
  | nil => exact first_sentence_ne_level expr inner
  | cons next exprs =>
    rw [sentenceAll, first_followedBy]
    exact first_sentence_ne_level expr inner

/-- A leaf stands before whatever does not start with a level. -/
theorem exprs_join_of_first_ne_level {operand : Operand} {connective : Connective}
    {rest : Sentence} (hrest : ∀ inner, rest.first ≠ .level inner) :
    (Sentence.join operand connective rest).exprs = .leaf operand.condition? :: rest.exprs := by
  cases rest with
  | last other =>
    cases other with
    | level inner => exact absurd rfl (hrest inner)
    | _ => simp [Sentence.exprs]
  | join other _ _ =>
    cases other with
    | level inner => exact absurd rfl (hrest inner)
    | _ => simp [Sentence.exprs]

/-- From the sentence of legible expressions on one level, these expressions are found. -/
theorem exprs_sentence {expr : Expr} (hexpr : expr.Legible) :
    expr.sentence.exprs = [expr] ∧
      ∀ (connective : Connective) (next : Sentence), (∀ inner, next.first ≠ .level inner) →
        (expr.sentence.followedBy connective next).exprs = expr :: next.exprs := by
  induction hexpr with
  | @leaf condition hcondition =>
    refine ⟨by simp [sentence, Sentence.exprs], fun connective next hnext => ?_⟩
    rw [sentence, Sentence.followedBy, exprs_join_of_first_ne_level hnext, condition?_own]
  | @group condition connective children hcondition hne hchildren ih =>
    have hall : children ≠ [] → (sentenceAll connective children).exprs = children := by
      refine forall_mem_induction
        (Q := fun exprs => exprs ≠ [] → (sentenceAll connective exprs).exprs = exprs) ?_ ?_ ih
      · exact fun hne => absurd rfl hne
      · intro first exprs hfirst hrest _
        cases exprs with
        | nil => exact hfirst.1
        | cons next exprs =>
          rw [sentenceAll, hfirst.2 connective _ (first_sentenceAll_ne_level connective next exprs),
            hrest (List.cons_ne_nil _ _)]
    have hinner := hall hne
    refine ⟨?_, fun other next _ => ?_⟩
    · rw [sentence, Sentence.exprs, condition?_own, hinner]
    · rw [sentence, Sentence.followedBy, Sentence.followedBy, Sentence.exprs, condition?_own,
        hinner]

/-- Reads a text as an expression. -/
def read? (text : String) : Option Expr :=
  (Sentence.read? text.toList).bind fun sentence =>
    match sentence.exprs with
    | [expr] => some expr
    | _ => none

/-- A legible expression is read back from its text. -/
theorem Legible.read?_render {expr : Expr} (hexpr : expr.Legible) :
    read? expr.render = some expr := by
  have hread : Sentence.read? expr.render.toList = some expr.sentence :=
    Sentence.read?_eq_some_iff.mpr ⟨hexpr.readable_sentence, expr.toList_render.symm⟩
  rw [read?, hread, Option.bind_some, (exprs_sentence hexpr).1]

end Expr

/-- Whether a record is as a sentence says, for given parameters. A sentence without a condition is
true of every record. -/
def Sentence.accepts (parameters : List String) (record : Record) (sentence : Sentence) : Bool :=
  (sentence.value (Condition.holds record parameters)).getD true

namespace Predicate

variable {limits : Limits} {filter : Filter} {predicate : Predicate}

/-- Under strict paths the text of a compiled predicate is read in exactly one way, and the records
that match are those of which this reading is true with the parameters. -/
theorem accepts_eq_reading (hstrict : limits.strictPaths = true)
    (hcompile : filter.compile limits = .ok predicate) :
    ∃ sentence, Sentence.read? predicate.expression.toList = some sentence ∧
      (∀ other : Sentence,
        other.Readable ∧ other.text = predicate.expression.toList ↔ other = sentence) ∧
      ∀ record, predicate.accepts record = sentence.accepts predicate.parameters record := by
  have hreadable := (Filter.legible_of_compile hstrict hcompile).readable_sentence
  have htext : predicate.expr.sentence.text = predicate.expression.toList :=
    predicate.expr.toList_render.symm
  refine ⟨predicate.expr.sentence, Sentence.read?_eq_some_iff.mpr ⟨hreadable, htext⟩, ?_, ?_⟩
  · intro other
    constructor
    · rintro ⟨hother, htext'⟩
      exact Sentence.text_injective hother hreadable (htext'.trans htext.symm)
    · rintro rfl
      exact ⟨hreadable, htext⟩
  · intro record
    rw [accepts, Sentence.accepts, Expr.value_eq]

/-- Fields may have the names of connectives, methods and null. -/
theorem accepts_eq_reading_keywords :
    let filter := Filter.group "or" [
      Filter.leaf "and" "contains" |>.withValue "x",
      Filter.leaf "null" "isnull" |>.withConnective "and" |>.withChild
        (.group "or" [Filter.leaf "or" "neq" |>.withValue "1", .leaf "Contains" "doesnotcontain"])]
    let predicate : Predicate := ⟨.group none .or [.leaf (some (.method "and" .contains 1)),
      .group (some (.nullTest "null" false)) .and
        [.group none .or [.leaf (some (.compare "or" .unequal 4)), .leaf none]]],
      ["", "x", "", "", "1", ""]⟩
    filter.compile {} = .ok predicate ∧
      predicate.expression = " or ((and.Contains(@1)) or null == null and ( or (or != @4 or )))" ∧
      ∃ sentence, Sentence.read? predicate.expression.toList = some sentence ∧
        (∀ other : Sentence,
          other.Readable ∧ other.text = predicate.expression.toList ↔ other = sentence) ∧
        ∀ record, predicate.accepts record = sentence.accepts predicate.parameters record := by
  intro filter predicate
  have hcompile : filter.compile {} = .ok predicate := rfl
  exact ⟨hcompile, rfl, accepts_eq_reading (by rfl) hcompile⟩

/-- Under strict paths the expression of a compiled predicate is read back from its text. So
predicates with the same text have the same expression, whatever limits and parameters they were
compiled with. -/
theorem expr_eq_of_expression (hstrict : limits.strictPaths = true)
    (hcompile : filter.compile limits = .ok predicate) :
    Expr.read? predicate.expression = some predicate.expr ∧
      ∀ (others : Limits) (other : Filter) (result : Predicate), others.strictPaths = true →
        other.compile others = .ok result → result.expression = predicate.expression →
        result.expr = predicate.expr := by
  have hread := (Filter.legible_of_compile hstrict hcompile).read?_render
  refine ⟨hread, fun others other result hstrict' hcompile' htext => ?_⟩
  have hother := (Filter.legible_of_compile hstrict' hcompile').read?_render
  have hsame : result.expr.render = predicate.expr.render := htext
  rw [hsame, hread] at hother
  exact (Option.some.inj hother).symm

/-- Filters with other values and under other limits have the same text and the same expression. -/
theorem expr_eq_of_expression_values :
    let first := Filter.group "and" [Filter.leaf "or" "eq" |>.withValue "1"]
    let second := Filter.group "and" [Filter.leaf "or" "eq" |>.withValue "2"]
    let predicate : Predicate :=
      ⟨.group none .and [.leaf (some (.compare "or" .equal 1))], ["", "1"]⟩
    let other : Predicate := { predicate with parameters := ["", "2"] }
    first.compile {} = .ok predicate ∧ second.compile { maxDepth := 2 } = .ok other ∧
      Expr.read? predicate.expression = some predicate.expr ∧
      other.expr = predicate.expr := by
  intro first second predicate other
  have hfirst : first.compile {} = .ok predicate := rfl
  have hsecond : second.compile { maxDepth := 2 } = .ok other := rfl
  obtain ⟨hread, hunique⟩ := expr_eq_of_expression (by rfl) hfirst
  exact ⟨hfirst, hsecond, hread, hunique { maxDepth := 2 } second other rfl hsecond rfl⟩

end Predicate

end RecordQuery
