import RecordQuery.Proofs.Sentence.Scanning

/-!
# Reading conditions

A condition is read at the head of a text. One that is no call starts with its field; a call is read
behind the parenthesis that opens it. Each of the two readers is exact: it finds the condition whose
text stands there, up to the last digit of its slot.
-/

namespace RecordQuery

open Text

/-- The field at the head of a text, up to the first character that no path has, and what follows.
-/
def takeField? (text : List Char) : Option (String × List Char) :=
  if isPath (text.takeWhile Path.isPart) then
    some (String.ofList (text.takeWhile Path.isPart), text.dropWhile Path.isPart)
  else none

/-- A path consists of characters of paths, and starts like a name. -/
theorem isPart_of_isPath {field : List Char} (hfield : isPath field = true) :
    (∃ c rest, field = c :: rest ∧ Segment.isNameStart c = true) ∧
      ∀ c ∈ field, Path.isPart c = true := by
  obtain ⟨path, hpath⟩ := Option.isSome_iff_exists.mp hfield
  exact Path.isPart_of_read? hpath

/-- A field is read where a path stands, and no further character of a path. -/
theorem takeField?_eq_some_iff {text rest : List Char} {field : String} :
    takeField? text = some (field, rest) ↔
      isPath field.toList = true ∧ field.toList ++ rest = text ∧ Stops Path.isPart rest := by
  unfold takeField?
  constructor
  · intro htake
    split at htake
    · next hpath =>
      obtain ⟨rfl, rfl⟩ := Prod.mk.inj (Option.some.inj htake)
      obtain ⟨htext, _, hstops⟩ := span_eq_iff.mp ⟨rfl, rfl⟩
      rw [String.toList_ofList]
      exact ⟨hpath, htext, hstops⟩
    · cases htake
  · rintro ⟨hpath, htext, hstops⟩
    obtain ⟨hfield, hrest⟩ := span_eq_iff.mpr ⟨htext, (isPart_of_isPath hpath).2, hstops⟩
    rw [hfield, hrest, if_pos hpath, String.ofList_toList]

namespace Condition

/-- Whether a condition is the call of a method. -/
def isCall : Condition → Bool
  | method _ _ _ => true
  | _ => false

/-- A text behind a condition that does not go on with the digits of its slot. -/
def EndsBefore : Condition → List Char → Prop
  | compare _ _ _, rest => Stops Char.isDigit rest
  | _, _ => True

/-- The text of a comparison. -/
theorem toList_render_compare {field : String} {op : Operator} {slot : Nat}
    (hkind : op.kind = .comparison) :
    (compare field op slot).render.toList =
      field.toList ++ (op.sign ++ (toString slot).toList) := by
  simp [render, Operator.sign, hkind]

/-- The text of a test for null. -/
theorem toList_render_nullTest (field : String) (negated : Bool) :
    (nullTest field negated).render.toList =
      field.toList ++ (if negated then Operator.isNotNull else Operator.isNull).sign := by
  cases negated <;> simp [render, Operator.sign, Operator.kind]

/-- The text of a call. -/
theorem toList_render_method (field : String) (op : Operator) (slot : Nat) :
    (method field op slot).render.toList =
      '(' :: ((if op.isNegated then ['!'] else []) ++ ((field.toList ++ '.' :: op.symbol.toList) ++
        ('(' :: '@' :: ((toString slot).toList ++ [')', ')'])))) := by
  cases hnegated : op.isNegated <;> simp [render, hnegated]

/-- A readable condition that is no call starts with its field, behind which a blank stands. -/
theorem toList_render_of_not_isCall {condition : Condition} (hreadable : condition.Readable)
    (hcall : condition.isCall = false) : ∃ field behind, isPath field = true ∧
      condition.render.toList = field ++ ' ' :: behind := by
  cases condition with
  | compare field op slot =>
    exact ⟨field.toList, _, hreadable.1, toList_render_compare hreadable.2⟩
  | nullTest field negated =>
    exact ⟨field.toList, _, hreadable, toList_render_nullTest field negated⟩
  | method field op slot => cases hcall

/-- A condition at the head of a text that starts with its field, and what follows it. -/
def readPlain? (text : List Char) : Option (Condition × List Char) := do
  let (field, rest) ← takeField? text
  let (op, rest) ← Operator.takeSign? rest
  if op.kind = .comparison then
    let (slot, rest) ← takeSlot? rest
    some (compare field op slot, rest)
  else some (nullTest field (op == .isNotNull), rest)

/-- Conditions that are no calls are read where their texts stand, up to the last digit. -/
theorem readPlain?_eq_some_iff {text rest : List Char} {condition : Condition} :
    readPlain? text = some (condition, rest) ↔
      condition.Readable ∧ condition.isCall = false ∧ condition.render.toList ++ rest = text ∧
        condition.EndsBefore rest := by
  constructor
  · intro hread
    obtain ⟨⟨field, behind⟩, hfield, hread⟩ := Option.bind_eq_some_iff.mp hread
    obtain ⟨⟨op, tail⟩, hop, hread⟩ := Option.bind_eq_some_iff.mp hread
    dsimp only at hread
    split at hread
    · next hkind =>
      obtain ⟨⟨slot, last⟩, hslot, hread⟩ := Option.bind_eq_some_iff.mp hread
      obtain ⟨rfl, rfl⟩ := Prod.mk.inj (Option.some.inj hread)
      obtain ⟨hpath, rfl, _⟩ := takeField?_eq_some_iff.mp hfield
      obtain ⟨_, rfl⟩ := Operator.takeSign?_eq_some_iff.mp hop
      obtain ⟨rfl, hstops⟩ := takeSlot?_eq_some_iff.mp hslot
      refine ⟨⟨hpath, hkind⟩, rfl, ?_, hstops⟩
      rw [toList_render_compare hkind, List.append_assoc, List.append_assoc]
    · next hkind =>
      obtain ⟨rfl, rfl⟩ := Prod.mk.inj (Option.some.inj hread)
      obtain ⟨hpath, rfl, _⟩ := takeField?_eq_some_iff.mp hfield
      obtain ⟨hmethod, rfl⟩ := Operator.takeSign?_eq_some_iff.mp hop
      refine ⟨hpath, rfl, ?_, trivial⟩
      have hsign : (if op == .isNotNull then Operator.isNotNull else Operator.isNull) = op := by
        cases op <;> first | rfl | exact absurd rfl hmethod | exact absurd rfl hkind
      rw [toList_render_nullTest, hsign, List.append_assoc]
  · rintro ⟨hreadable, hcall, rfl, hends⟩
    have hfield : ∀ (field : String) (op : Operator) (behind : List Char),
        isPath field.toList = true →
        takeField? (field.toList ++ (op.sign ++ behind)) = some (field, op.sign ++ behind) :=
      fun _ _ _ hpath => takeField?_eq_some_iff.mpr ⟨hpath, rfl, stops_cons rfl⟩
    cases condition with
    | compare field op slot =>
      obtain ⟨hpath, hkind⟩ := hreadable
      have hop : Operator.takeSign? (op.sign ++ ((toString slot).toList ++ rest)) =
          some (op, (toString slot).toList ++ rest) :=
        Operator.takeSign?_eq_some_iff.mpr ⟨by simp [hkind], rfl⟩
      have hslot : takeSlot? ((toString slot).toList ++ rest) = some (slot, rest) :=
        takeSlot?_eq_some_iff.mpr ⟨rfl, hends⟩
      rw [toList_render_compare hkind, List.append_assoc, List.append_assoc]
      refine Option.bind_eq_some_iff.mpr ⟨_, hfield field op _ hpath, ?_⟩
      refine Option.bind_eq_some_iff.mpr ⟨_, hop, ?_⟩
      refine (if_pos hkind).trans ?_
      exact Option.bind_eq_some_iff.mpr ⟨_, hslot, rfl⟩
    | nullTest field negated =>
      have hop : ∀ op : Operator, op.kind = .nullTest →
          Operator.takeSign? (op.sign ++ rest) = some (op, rest) :=
        fun op hkind => Operator.takeSign?_eq_some_iff.mpr ⟨by simp [hkind], rfl⟩
      rw [toList_render_nullTest, List.append_assoc]
      refine Option.bind_eq_some_iff.mpr ⟨_, hfield field _ _ hreadable, ?_⟩
      refine Option.bind_eq_some_iff.mpr ⟨_, hop _ (by cases negated <;> rfl), ?_⟩
      cases negated <;> rfl
    | method field op slot => cases hcall

/-- The negation at the head of a text, if there is one, and what follows it. -/
def takeNegation : List Char → Bool × List Char
  | '!' :: rest => (true, rest)
  | text => (false, text)

/-- The text of a negation, if there is one. -/
def negation (negated : Bool) : List Char :=
  if negated then ['!'] else []

/-- The call of a method at the head of a text, behind its opening parenthesis, and what follows the
call. -/
def readCall? (text : List Char) : Option (Condition × List Char) := do
  let (negated, text) := takeNegation text
  let (op, field) ← Operator.takeName? negated (text.takeWhile Path.isPart)
  let (slot, rest) ← takeArgument? (text.dropWhile Path.isPart)
  if isPath field then some (method (String.ofList field) op slot, rest) else none

/-- What has been read of a negation is what stood there. -/
theorem negation_takeNegation (text : List Char) :
    negation (takeNegation text).1 ++ (takeNegation text).2 = text := by
  unfold takeNegation
  split <;> rfl

/-- A negation is read, or its absence before a character of a path. -/
theorem takeNegation_append (negated : Bool) {word rest : List Char}
    (hword : ∃ c tail, word = c :: tail ∧ Path.isPart c = true) :
    takeNegation (negation negated ++ (word ++ rest)) = (negated, word ++ rest) := by
  obtain ⟨c, tail, rfl, hc⟩ := hword
  cases negated with
  | true => rfl
  | false =>
    have hbang : c ≠ '!' := by
      rintro rfl
      cases hc
    simp [negation, takeNegation, hbang]

/-- The name of a method consists of characters of paths. -/
theorem isPart_of_mem_symbol {op : Operator} (hkind : op.kind = .method) :
    ∀ c ∈ '.' :: op.symbol.toList, Path.isPart c = true := by
  have hall : ('.' :: op.symbol.toList).all Path.isPart = true := by
    cases op <;> first | rfl | cases hkind
  exact List.all_eq_true.mp hall

/-- A call is read where its text stands. -/
theorem readCall?_eq_some_iff {text rest : List Char} {condition : Condition} :
    readCall? text = some (condition, rest) ↔
      condition.Readable ∧ condition.isCall = true ∧
        condition.render.toList ++ rest = '(' :: text := by
  constructor
  · intro hread
    have htext := negation_takeNegation text
    unfold readCall? at hread
    generalize takeNegation text = taken at hread htext
    obtain ⟨negated, behind⟩ := taken
    dsimp only at hread htext
    obtain ⟨⟨op, field⟩, hname, hread⟩ := Option.bind_eq_some_iff.mp hread
    obtain ⟨⟨slot, last⟩, hargument, hread⟩ := Option.bind_eq_some_iff.mp hread
    dsimp only at hread
    split at hread
    · next hpath =>
      obtain ⟨rfl, rfl⟩ := Prod.mk.inj (Option.some.inj hread)
      obtain ⟨hkind, rfl, hword⟩ := Operator.takeName?_eq_some_iff.mp hname
      refine ⟨⟨by rwa [String.toList_ofList], hkind⟩, rfl, ?_⟩
      rw [toList_render_method, ← htext, ← List.takeWhile_append_dropWhile (p := Path.isPart)
        (l := behind), ← hword, ← takeArgument?_eq_some_iff.mp hargument]
      simp [negation]
    · cases hread
  · rintro ⟨hreadable, hcall, htext⟩
    cases condition with
    | compare field op slot => cases hcall
    | nullTest field negated => cases hcall
    | method field op slot =>
      obtain ⟨hpath, hkind⟩ := hreadable
      obtain ⟨⟨c, tail, hfield, hstart⟩, hparts⟩ := isPart_of_isPath hpath
      have hword : ∀ c ∈ field.toList ++ '.' :: op.symbol.toList, Path.isPart c = true := by
        intro c hc
        rcases List.mem_append.mp hc with hc | hc
        · exact hparts c hc
        · exact isPart_of_mem_symbol hkind c hc
      have hstops : Stops Path.isPart
          ('(' :: '@' :: ((toString slot).toList ++ ')' :: ')' :: rest)) := stops_cons (by decide)
      obtain ⟨htake, hdrop⟩ := span_eq_iff.mpr ⟨rfl, hword, hstops⟩
      have hnegation : takeNegation text =
          (op.isNegated, (field.toList ++ '.' :: op.symbol.toList) ++
            '(' :: '@' :: ((toString slot).toList ++ ')' :: ')' :: rest)) := by
        have hstarts : ∃ c tail, field.toList ++ '.' :: op.symbol.toList = c :: tail ∧
            Path.isPart c = true := ⟨c, _, by rw [hfield]; rfl, hparts c (by simp [hfield])⟩
        rw [← takeNegation_append op.isNegated hstarts]
        rw [toList_render_method, List.cons_append] at htext
        rw [← (List.cons.inj htext).2]
        simp [negation]
      unfold readCall?
      rw [hnegation]
      dsimp only
      rw [htake, hdrop]
      refine Option.bind_eq_some_iff.mpr
        ⟨_, Operator.takeName?_eq_some_iff.mpr ⟨hkind, rfl, rfl⟩, ?_⟩
      refine Option.bind_eq_some_iff.mpr ⟨_, takeArgument?_eq_some_iff.mpr rfl, ?_⟩
      refine (if_pos hpath).trans ?_
      rw [String.ofList_toList]

/-- No call is read where a word of a path stands that no argument follows. -/
theorem readCall?_eq_none {word rest : List Char} (hword : ∀ c ∈ word, Path.isPart c = true)
    (hrest : Stops Path.isPart rest) (hnegation : (word ++ rest).head? ≠ some '!')
    (hargument : word = [] ∨ rest.head? ≠ some '(') : readCall? (word ++ rest) = none := by
  have htaken : takeNegation (word ++ rest) = (false, word ++ rest) := by
    unfold takeNegation
    split
    · next heq => exact absurd (by rw [heq]; rfl) hnegation
    · rfl
  obtain ⟨htake, hdrop⟩ := span_eq_iff.mpr ⟨rfl, hword, hrest⟩
  unfold readCall?
  rw [htaken]
  dsimp only
  rw [htake, hdrop]
  rcases hargument with rfl | hhead
  · rfl
  · have hnone : takeArgument? rest = none := by
      cases hargument : takeArgument? rest with
      | none => rfl
      | some found =>
        rw [← takeArgument?_eq_some_iff.mp hargument] at hhead
        exact absurd rfl hhead
    rw [hnone]
    cases Operator.takeName? false word <;> rfl

end Condition

end RecordQuery
