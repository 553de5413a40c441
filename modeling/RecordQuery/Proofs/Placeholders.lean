import RecordQuery.Proofs.Conditionless
import RecordQuery.Proofs.Sentence.Predicates
import RecordQuery.Proofs.Slots

/-!
# Placeholders in the text

What the text of a predicate says to one who only looks at its characters: the numbers behind the
signs `@`, and the parentheses. Under strict paths no field adds to either, so the numbers are the
slots of the nodes that need their value, in pre-order, and every parenthesis is closed.
-/

namespace RecordQuery

namespace Text

/-- The digits behind each `@` of a text, from left to right. -/
def placeholders : List Char → List (List Char)
  | [] => []
  | c :: rest =>
    if c = '@' then rest.takeWhile Char.isDigit :: placeholders rest else placeholders rest

/-- The parentheses of a text are balanced: as many are closed as are opened, and nowhere have more
been closed than opened before. -/
structure Balanced (text : List Char) : Prop where
  count_eq : text.count '(' = text.count ')'
  count_take_le : ∀ n, (text.take n).count ')' ≤ (text.take n).count '('

/-- A text that does not begin with a digit has placeholders with given numbers, whatever follows
that does not go on with one, and balanced parentheses. -/
structure Carries (text : List Char) (slots : List Nat) : Prop where
  stops : Stops Char.isDigit text
  placeholders_append : ∀ rest, Stops Char.isDigit rest →
    placeholders (text ++ rest) =
      slots.map (fun slot => (toString slot).toList) ++ placeholders rest
  balanced : Balanced text

variable {text next : List Char} {slots more : List Nat}

/-- Balanced texts one behind the other are balanced. -/
theorem Balanced.append (htext : Balanced text) (hnext : Balanced next) :
    Balanced (text ++ next) := by
  refine ⟨?_, fun n => ?_⟩
  · rw [List.count_append, List.count_append, htext.count_eq, hnext.count_eq]
  · have hbefore := htext.count_take_le n
    have hbehind := hnext.count_take_le (n - text.length)
    rw [List.take_append, List.count_append, List.count_append]
    omega

/-- A balanced text in parentheses is balanced. -/
theorem Balanced.parenthesize (htext : Balanced text) : Balanced ('(' :: (text ++ [')'])) := by
  refine ⟨?_, fun n => ?_⟩
  · simp [htext.count_eq]
  · cases n with
    | zero => simp
    | succ n =>
      have hbefore := htext.count_take_le n
      have hclosing : ([')'].take (n - text.length)).count ')' ≤ 1 :=
        (List.take_sublist _ _).count_le ')'
      rw [List.take_succ_cons, List.take_append, List.count_cons, List.count_cons,
        List.count_append, List.count_append]
      simp only [beq_iff_eq, Char.reduceEq, if_false, if_true]
      omega

/-- A text without parentheses is balanced. -/
theorem balanced_of_not_mem (hopening : '(' ∉ text) (hclosing : ')' ∉ text) : Balanced text := by
  refine ⟨?_, fun n => ?_⟩
  · rw [List.count_eq_zero.mpr hopening, List.count_eq_zero.mpr hclosing]
  · have hnone : (text.take n).count ')' = 0 :=
      List.count_eq_zero.mpr fun hmem => hclosing (List.mem_of_mem_take hmem)
    omega

/-- A text without the sign of placeholders has none. -/
theorem placeholders_append_of_not_mem (hsign : '@' ∉ text) (rest : List Char) :
    placeholders (text ++ rest) = placeholders rest := by
  induction text with
  | nil => rfl
  | cons c text ih =>
    rw [List.mem_cons, not_or] at hsign
    rw [List.cons_append, placeholders, if_neg (Ne.symm hsign.1), ih hsign.2]

/-- A text without signs of the rendered language carries no placeholder. -/
theorem carries_nil_of_not_mem (hstops : Stops Char.isDigit text) (hsign : '@' ∉ text)
    (hopening : '(' ∉ text) (hclosing : ')' ∉ text) : Carries text [] :=
  ⟨hstops, fun rest _ => placeholders_append_of_not_mem hsign rest,
    balanced_of_not_mem hopening hclosing⟩

/-- The empty text carries no placeholder. -/
theorem carries_nil : Carries [] [] :=
  carries_nil_of_not_mem (stops_nil _) List.not_mem_nil List.not_mem_nil List.not_mem_nil

/-- A placeholder carries its number. -/
theorem carries_placeholder (slot : Nat) : Carries ('@' :: (toString slot).toList) [slot] := by
  have hdigit : ∀ c ∈ (toString slot).toList, c.isDigit = true :=
    fun c hc => isDigit_of_mem_toString hc
  have hnone : ∀ c, c.isDigit = false → c ∉ (toString slot).toList := by
    intro c hc hmem
    rw [hdigit c hmem] at hc
    cases hc
  refine ⟨stops_cons rfl, fun rest hrest => ?_, balanced_of_not_mem ?_ ?_⟩
  · obtain ⟨hdigits, _⟩ := span_eq_iff.mpr ⟨rfl, hdigit, hrest⟩
    rw [List.cons_append, placeholders, if_pos rfl, hdigits,
      placeholders_append_of_not_mem (hnone '@' rfl)]
    rfl
  · simpa using hnone '(' rfl
  · simpa using hnone ')' rfl

/-- Two texts one behind the other carry what they carry by themselves. -/
theorem Carries.append (htext : Carries text slots) (hnext : Carries next more) :
    Carries (text ++ next) (slots ++ more) := by
  refine ⟨htext.stops.append hnext.stops, fun rest hrest => ?_,
    htext.balanced.append hnext.balanced⟩
  rw [List.append_assoc, htext.placeholders_append _ (hnext.stops.append hrest),
    hnext.placeholders_append rest hrest, List.map_append, List.append_assoc]

/-- A text without placeholders adds none to another. -/
theorem Carries.append_plain (htext : Carries text slots) (hnext : Carries next []) :
    Carries (text ++ next) slots := by
  simpa using htext.append hnext

/-- Parentheses around a text do not change its placeholders. -/
theorem Carries.parenthesize (htext : Carries text slots) :
    Carries ('(' :: (text ++ [')'])) slots := by
  refine ⟨stops_cons rfl, fun rest _ => ?_, htext.balanced.parenthesize⟩
  have hclosing : placeholders (')' :: rest) = placeholders rest := by
    rw [placeholders, if_neg (by decide)]
  rw [List.cons_append, List.append_assoc, placeholders, if_neg (by decide), List.singleton_append,
    htext.placeholders_append _ (stops_cons rfl), hclosing]

end Text

open Text

/-! ## Texts of expressions -/

/-- No path has signs of the rendered language in it. -/
theorem carries_of_isPath {field : List Char} (hfield : isPath field = true) :
    Carries field [] := by
  obtain ⟨⟨c, rest, hc, hstart⟩, hparts⟩ := isPart_of_isPath hfield
  have hnone : ∀ c, Path.isPart c = false → c ∉ field := by
    intro c hc hmem
    rw [hparts c hmem] at hc
    cases hc
  have hstops : Stops Char.isDigit field := by
    rw [hc]
    exact stops_cons (Word.isDigit_eq_false_of_isNameStart hstart)
  exact carries_nil_of_not_mem hstops (hnone '@' (by decide)) (hnone '(' (by decide))
    (hnone ')' (by decide))

/-- A readable condition carries its slot, if it has one. -/
theorem Condition.carries_render {condition : Condition} (hreadable : condition.Readable) :
    Carries condition.render.toList condition.slot?.toList := by
  cases condition with
  | compare field op slot =>
    obtain ⟨hpath, _⟩ := hreadable
    have hsymbol : Carries (' ' :: (op.symbol.toList ++ [' '])) [] := by
      cases op <;> exact carries_nil_of_not_mem (stops_cons rfl) (by decide) (by decide) (by decide)
    have htext : (compare field op slot).render.toList =
        field.toList ++ (' ' :: (op.symbol.toList ++ [' '])) ++
          ('@' :: (toString slot).toList) := by
      simp [render]
    rw [htext]
    exact ((carries_of_isPath hpath).append hsymbol).append (carries_placeholder slot)
  | nullTest field negated =>
    have hsymbol : Carries
        (' ' :: (if negated then Operator.isNotNull else Operator.isNull).symbol.toList) [] := by
      cases negated <;>
        exact carries_nil_of_not_mem (stops_cons rfl) (by decide) (by decide) (by decide)
    have htext : (nullTest field negated).render.toList = field.toList ++
        (' ' :: (if negated then Operator.isNotNull else Operator.isNull).symbol.toList) := by
      simp [render]
    rw [htext]
    exact (carries_of_isPath hreadable).append hsymbol
  | method field op slot =>
    obtain ⟨hpath, _⟩ := hreadable
    have hnegation : Carries (if op.isNegated then ['!'] else []) [] := by
      cases op.isNegated with
      | false => exact carries_nil
      | true => exact carries_nil_of_not_mem (stops_cons rfl) (by decide) (by decide) (by decide)
    have hname : Carries ('.' :: op.symbol.toList) [] := by
      cases op <;> exact carries_nil_of_not_mem (stops_cons rfl) (by decide) (by decide) (by decide)
    have htext : (method field op slot).render.toList =
        '(' :: ((if op.isNegated then ['!'] else []) ++ field.toList ++ ('.' :: op.symbol.toList) ++
          ('(' :: (('@' :: (toString slot).toList) ++ [')'])) ++ [')']) := by
      rw [toList_render_method]
      simp
    rw [htext]
    exact (((hnegation.append (carries_of_isPath hpath)).append hname).append
      (carries_placeholder slot).parenthesize).parenthesize

namespace Expr

variable {condition : Option Condition} {connective : Connective} {children : List Expr}

/-- A leaf refers to the slot of its condition. -/
theorem slots_leaf (condition : Option Condition) :
    (leaf condition).slots = (condition.bind Condition.slot?).toList := by
  rw [slots, nodes_leaf, List.filterMap_cons, List.filterMap_nil, ownSlot?, Expr.condition]
  cases condition.bind Condition.slot? <;> rfl

/-- A group refers to the slot of its condition and to those of its children. -/
theorem slots_group (condition : Option Condition) (connective : Connective)
    (children : List Expr) : (Expr.group condition connective children).slots =
      (condition.bind Condition.slot?).toList ++ children.flatMap slots := by
  have hchildren : (children.flatMap nodes).filterMap ownSlot? = children.flatMap slots :=
    List.filterMap_flatMap
  rw [slots, nodes_group, List.filterMap_cons, hchildren, ownSlot?, Expr.condition]
  cases condition.bind Condition.slot? <;> rfl

/-- The text of a node's condition carries the slot of the node. -/
theorem carries_renderOwn (hcondition : ∀ c ∈ condition, c.Readable) :
    Carries (renderOwn condition).toList (condition.bind Condition.slot?).toList := by
  cases condition with
  | none => exact carries_nil
  | some c => exact c.carries_render (hcondition c rfl)

/-- A connective between blanks carries no placeholder. -/
theorem carries_connective (connective : Connective) :
    Carries (' ' :: (connective.token.toList ++ [' '])) [] := by
  cases connective <;>
    exact carries_nil_of_not_mem (stops_cons rfl) (by decide) (by decide) (by decide)

/-- Several texts with a connective between them carry what they carry by themselves. -/
theorem carries_intercalate (connective : Connective)
    (hchildren : ∀ child ∈ children, Carries child.render.toList child.slots) :
    Carries ((" " ++ connective.token ++ " ").intercalate (children.map render)).toList
      (children.flatMap slots) := by
  have hseparator : (" " ++ connective.token ++ " ").toList =
      ' ' :: (connective.token.toList ++ [' ']) := by
    simp
  rw [String.toList_intercalate, hseparator, List.map_map]
  refine forall_mem_induction (Q := fun exprs =>
    Carries ((' ' :: (connective.token.toList ++ [' '])).intercalate
      (exprs.map (String.toList ∘ render))) (exprs.flatMap slots)) ?_ ?_ hchildren
  · exact carries_nil
  · intro child exprs hchild hrest
    cases exprs with
    | nil => simpa using hchild
    | cons next exprs =>
      rw [List.map_cons, List.map_cons, List.intercalate_cons_cons, ← List.map_cons,
        List.flatMap_cons]
      exact (hchild.append_plain (carries_connective connective)).append hrest

/-- The text of a legible expression carries its slots. -/
theorem Legible.carries_render {expr : Expr} (hexpr : expr.Legible) :
    Carries expr.render.toList expr.slots := by
  induction hexpr with
  | leaf hcondition =>
    rw [render, slots_leaf]
    exact carries_renderOwn hcondition
  | @group condition connective children hcondition hne hchildren ih =>
    have htext : (Expr.group condition connective children).render.toList =
        (renderOwn condition).toList ++ (' ' :: (connective.token.toList ++ [' '])) ++
          ('(' :: (((" " ++ connective.token ++ " ").intercalate
            (children.map render)).toList ++ [')'])) := by
      simp [render]
    rw [htext, slots_group]
    exact ((carries_renderOwn hcondition).append_plain (carries_connective connective)).append
      (carries_intercalate connective ih).parenthesize

end Expr

/-! ## Slots of filters -/

namespace Filter

/-- Whether the condition of a node needs the value of the node: there is one, and the operator is
no test for null. -/
def bindsValue (filter : Filter) : Bool :=
  filter.hasValue && filter.operator != Operator.isNull.token &&
    filter.operator != Operator.isNotNull.token

/-- The numbers in pre-order of the nodes that need their value. -/
def boundSlots (filter : Filter) : List Nat :=
  (filter.flatten.zipIdx.filter (·.1.bindsValue)).map (·.2)

/-- A node that has a condition refers to its slot exactly if it needs its value. -/
theorem Forms.slot?_eq {filter : Filter} {slot : Nat} {condition : Option Condition}
    (hforms : Forms filter slot condition) :
    condition.bind Condition.slot? = if filter.bindsValue then some slot else none := by
  have hbinds : ∀ op : Operator, op.kind ≠ .nullTest → Operator.ofToken filter.operator = .ok op →
      filter.bindsValue = filter.hasValue := by
    intro op hkind hop
    rw [bindsValue, ← Operator.token_of_ofToken hop]
    cases op with
    | isNull | isNotNull => exact absurd rfl hkind
    | _ => simp [Operator.token]
  cases hforms with
  | @nullTest op hop hkind =>
    have hnone : filter.bindsValue = false := by
      rw [bindsValue, ← Operator.token_of_ofToken hop]
      cases op with
      | isNull | isNotNull => simp [Operator.token]
      | _ => cases hkind
    rw [hnone]
    rfl
  | @compare op hop hkind hvalue =>
    rw [hbinds op (by simp [hkind]) hop, if_pos hvalue]
    rfl
  | @method op hop hkind hvalue =>
    rw [hbinds op (by simp [hkind]) hop, if_pos hvalue]
    rfl
  | @valueless op hop hkind hvalue =>
    rw [hbinds op hkind hop, hvalue]
    rfl
  | grouping hgrouping =>
    simp only [isGrouping, Bool.and_eq_true, Bool.not_eq_true'] at hgrouping
    rw [bindsValue, hgrouping.2]
    rfl

/-- The slots of an expression that belongs to numbered nodes are the numbers of those nodes that
need their value. -/
theorem filterMap_ownSlot?_of_belongs {nodes : List (Filter × Nat)} {exprs : List Expr}
    (hbelongs : List.Forall₂ Belongs nodes exprs) :
    exprs.filterMap Expr.ownSlot? = (nodes.filter (·.1.bindsValue)).map (·.2) := by
  induction hbelongs with
  | nil => rfl
  | @cons node expr nodes exprs hbelongs _ ih =>
    have hslot : expr.ownSlot? = if node.1.bindsValue then some node.2 else none :=
      hbelongs.2.slot?_eq
    rw [List.filterMap_cons, hslot, List.filter_cons, ih]
    cases node.1.bindsValue <;> rfl

/-- A filter is compiled to an expression that refers to its bound slots. -/
theorem slots_of_compile {limits : Limits} {filter : Filter} {predicate : Predicate}
    (hcompile : filter.compile limits = .ok predicate) :
    predicate.expr.slots = filter.boundSlots := by
  obtain ⟨_, next, hroot, _⟩ := compile_eq_ok hcompile
  exact filterMap_ownSlot?_of_belongs (belongs_of_compileFrom hroot).2

/-- Bound slots are in strictly ascending order. -/
theorem pairwise_boundSlots (filter : Filter) : filter.boundSlots.Pairwise (· < ·) := by
  have hnumbers : (filter.flatten.zipIdx.map (·.2)).Pairwise (· < ·) := by
    rw [List.zipIdx_map_snd]
    exact List.pairwise_lt_range'
  exact hnumbers.sublist (List.filter_sublist.map _)

/-- Under strict paths, the digits behind the signs `@` of a predicate's text spell, from left to
right, the numbers in pre-order of the nodes that need their value. These numbers ascend strictly,
and the parentheses of the text are balanced. -/
theorem placeholders_expression {limits : Limits} {filter : Filter} {predicate : Predicate}
    (hstrict : limits.strictPaths = true) (hcompile : filter.compile limits = .ok predicate) :
    placeholders predicate.expression.toList =
        filter.boundSlots.map (fun slot => (toString slot).toList) ∧
      (placeholders predicate.expression.toList).map Number.digitsValue = filter.boundSlots ∧
      filter.boundSlots.Pairwise (· < ·) ∧ Balanced predicate.expression.toList := by
  have hcarries := (legible_of_compile hstrict hcompile).carries_render
  have hdigits : placeholders predicate.expression.toList =
      filter.boundSlots.map fun slot => (toString slot).toList := by
    have hend := hcarries.placeholders_append [] (stops_nil _)
    rwa [List.append_nil, placeholders, List.append_nil, slots_of_compile hcompile] at hend
  refine ⟨hdigits, ?_, pairwise_boundSlots filter, hcarries.balanced⟩
  rw [hdigits, List.map_map]
  exact List.map_id'' digitsValue_toString _

/-- Digits in a field are no placeholder, and signs in a value are not in the text. -/
theorem placeholders_expression_digits :
    let filter := leaf "f1" "eq" |>.withValue "0" |>.withConnective "and" |>.withChild
      (group "or" (List.replicate 8 (leaf "a" "isnull" |>.withValue "1") ++
        [leaf "b[12].c" "doesnotcontain" |>.withValue "(@7", leaf "d" "eq",
          leaf "e" "lt" |>.withValue "2"]))
    ∃ predicate, filter.compile {} = .ok predicate ∧
      (placeholders predicate.expression.toList).map Number.digitsValue = [0, 10, 12] ∧
      Balanced predicate.expression.toList := by
  intro filter
  obtain ⟨predicate, hcompile⟩ : ∃ predicate, filter.compile {} = .ok predicate := ⟨_, rfl⟩
  obtain ⟨_, hnumbers, _, hbalanced⟩ := placeholders_expression (by rfl) hcompile
  exact ⟨predicate, hcompile, hnumbers, hbalanced⟩

end Filter

end RecordQuery
