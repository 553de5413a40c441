import RecordQuery.Proofs.PathGrammar

/-!
# Rendering paths

A path is rendered as the text from which it was read, but for the zeros in front of its positions.
They are left out, up to the last digit of a position. What is rendered is read as the same path
again, so the paths are told apart by their renderings.
-/

namespace RecordQuery

/-! ## Digits without leading zeros -/

/-- The value of a digit is less than ten. -/
theorem IsDigit.value_lt {c : Char} (hc : IsDigit c) : c.toNat - '0'.toNat < 10 := by
  have hhigh : c.toNat ≤ '9'.toNat := hc.2
  have hten : '9'.toNat = '0'.toNat + 9 := rfl
  omega

/-- The value of a digit is written as this digit. -/
theorem toList_toString_digit {c : Char} (hc : IsDigit c) :
    (toString (c.toNat - '0'.toNat)).toList = [c] := by
  have hlow : '0'.toNat ≤ c.toNat := hc.1
  have hsame : (c.toNat - '0'.toNat).digitChar.toNat = c.toNat := by
    rw [Nat.toNat_digitChar_of_lt_ten hc.value_lt]
    exact Nat.add_sub_cancel' hlow
  rw [Nat.toString_eq_ofList_toDigits, String.toList_ofList, Nat.toDigits_of_lt_base hc.value_lt,
    Char.toNat_inj.mp hsame]

/-- One more digit is written behind a number that is not zero. -/
theorem toList_toString_append {value digit : Nat} (hvalue : value ≠ 0) (hdigit : digit < 10) :
    (toString (10 * value + digit)).toList =
      (toString value).toList ++ (toString digit).toList := by
  simp only [Nat.toString_eq_ofList_toDigits, String.toList_ofList]
  exact (Nat.toDigits_append_toDigits (by decide) (Nat.pos_of_ne_zero hvalue) hdigit).symm

/-- A number is written with the digits that spell it, if the first of several ones is no zero. -/
theorem SpellsNumber.toList_toString {digits : List Char} {value : Nat}
    (hnumber : SpellsNumber digits value) (hhead : 1 < digits.length → digits.head? ≠ some '0') :
    (toString value).toList = digits := by
  induction hnumber with
  | digit hc => exact toList_toString_digit hc
  | @append digits value c hnumber hc ih =>
    obtain ⟨first, rest, rfl⟩ :=
      List.exists_cons_of_ne_nil (spellsNumber_iff.mp hnumber).1
    have hfirst : first ≠ '0' := by simpa using hhead (by simp)
    have hdigits := ih fun _ => by simpa using hfirst
    have hvalue : value ≠ 0 := by
      rintro rfl
      exact hfirst (List.cons.inj hdigits).1.symm
    rw [toList_toString_append hvalue hc.value_lt, hdigits, toList_toString_digit hc]

namespace Path

/-! ## Leaving out zeros -/

/-- Leaves out the zeros that stand behind an opening bracket and in front of another digit. The
first argument tells whether a zero may be left out at the head of the text. -/
def dropZeros : Bool → List Char → List Char
  | _, [] => []
  | opened, c :: rest =>
    if opened ∧ c = '0' ∧ rest.head?.any Char.isDigit then dropZeros true rest
    else c :: dropZeros (c == '[') rest

/-- A text begins with a zero in front of another digit. -/
def BeginsSpare (text : List Char) : Prop :=
  ∃ digit, IsDigit digit ∧ ['0', digit] <+: text

/-- In some brackets a zero stands in front of another digit. -/
def HasSpareZero (text : List Char) : Prop :=
  ∃ digit, IsDigit digit ∧ ['[', '0', digit] <:+: text

/-- What follows a character that is no digit is looked at by itself. -/
theorem dropZeros_append_cons (opened : Bool) (front : List Char) {c : Char}
    (hc : c.isDigit = false) (rest : List Char) :
    dropZeros opened (front ++ c :: rest) =
      dropZeros opened front ++ c :: dropZeros (c == '[') rest := by
  induction front generalizing opened with
  | nil =>
    have hzero : c ≠ '0' := by
      rintro rfl
      cases hc
    simp [dropZeros, hzero]
  | cons d front ih =>
    have hhead : (front ++ c :: rest).head?.any Char.isDigit = front.head?.any Char.isDigit := by
      cases front with
      | nil => exact hc
      | cons => rfl
    rw [List.cons_append, dropZeros, dropZeros, hhead]
    split
    · exact ih true
    · rw [ih, List.cons_append]

/-- Outside of brackets nothing is left out. -/
theorem dropZeros_append {name : List Char} (hname : '[' ∉ name) (rest : List Char) :
    dropZeros false (name ++ rest) = name ++ dropZeros false rest := by
  induction name with
  | nil => rfl
  | cons c name ih =>
    obtain ⟨hc, hname⟩ := not_or.mp (mt List.mem_cons.mpr hname)
    have hopening : (c == '[') = false := beq_false_of_ne (Ne.symm hc)
    rw [List.cons_append, dropZeros, if_neg (by simp), hopening, ih hname, List.cons_append]

theorem dropZeros_of_not_mem {text : List Char} (htext : '[' ∉ text) :
    dropZeros false text = text := by
  simpa [dropZeros] using dropZeros_append htext []

/-- What is left of the digits of a position is how the position is written. -/
theorem dropZeros_digits {digits : List Char} {position : Nat}
    (hnumber : SpellsNumber digits position) :
    dropZeros true digits = (toString position).toList := by
  obtain ⟨hne, hdigits, rfl⟩ := spellsNumber_iff.mp hnumber
  induction digits with
  | nil => exact absurd rfl hne
  | cons c rest ih =>
    have hrest : ∀ d ∈ rest, IsDigit d := fun d hd => hdigits d (List.mem_cons_of_mem c hd)
    rw [dropZeros]
    split
    · next hspare =>
      -- A zero in front of other digits does not count for the number.
      obtain ⟨_, rfl, hhead⟩ := hspare
      have hne : rest ≠ [] := by
        rintro rfl
        cases hhead
      have hvalue : Number.digitsValue ('0' :: rest) = Number.digitsValue rest := rfl
      rw [hvalue]
      exact ih hne hrest (spellsNumber_iff.mpr ⟨hne, hrest, rfl⟩)
    · next hspare =>
      have hopening : '[' ∉ c :: rest := hnumber.not_mem (by decide)
      obtain ⟨hc, hnone⟩ := not_or.mp (mt List.mem_cons.mpr hopening)
      rw [beq_false_of_ne (Ne.symm hc), dropZeros_of_not_mem hnone]
      refine (hnumber.toList_toString fun hlength hzero => hspare ⟨rfl, ?_, ?_⟩).symm
      · exact Option.some.inj hzero
      · cases rest with
        | nil => cases Nat.lt_irrefl 1 hlength
        | cons d rest => exact isDigit_iff.mpr (hrest d List.mem_cons_self)

theorem length_dropZeros_le (opened : Bool) (text : List Char) :
    (dropZeros opened text).length ≤ text.length := by
  induction text generalizing opened with
  | nil => rfl
  | cons c rest ih =>
    rw [dropZeros]
    split
    · exact Nat.le_succ_of_le (ih true)
    · exact Nat.succ_le_succ (ih _)

theorem beginsSpare_cons_iff {c : Char} {rest : List Char} :
    BeginsSpare (c :: rest) ↔ c = '0' ∧ rest.head?.any Char.isDigit = true := by
  rw [BeginsSpare, eq_comm (a := c)]
  cases rest with
  | nil => simp
  | cons d rest => simp [isDigit_iff, and_left_comm]

/-- A spare zero stands behind the first character, if this is an opening bracket, or further on. -/
theorem hasSpareZero_cons_iff {c : Char} {rest : List Char} :
    HasSpareZero (c :: rest) ↔ (c = '[' ∧ BeginsSpare rest) ∨ HasSpareZero rest := by
  simp only [HasSpareZero, BeginsSpare, List.infix_cons_iff, List.cons_prefix_cons, and_or_left,
    exists_or, eq_comm (a := c), and_left_comm, exists_and_left]

/-- Nothing is left out exactly where there are no spare zeros. -/
theorem dropZeros_eq_self_iff (opened : Bool) (text : List Char) :
    dropZeros opened text = text ↔
      ¬ (opened = true ∧ BeginsSpare text) ∧ ¬ HasSpareZero text := by
  induction text generalizing opened with
  | nil => simp [dropZeros, BeginsSpare, HasSpareZero]
  | cons c rest ih =>
    rw [dropZeros, beginsSpare_cons_iff]
    split
    · next hspare =>
      have hshorter : dropZeros true rest ≠ c :: rest := by
        intro hsame
        have hlength := length_dropZeros_le true rest
        rw [hsame, List.length_cons] at hlength
        omega
      exact iff_of_false hshorter fun hnone => hnone.1 hspare
    · next hspare =>
      rw [List.cons.injEq, ih, hasSpareZero_cons_iff]
      simp [hspare, not_or]

end Path

/-! ## Rendering step by step -/

/-- What a step adds to a rendering: a name stands behind a dot. -/
def Step.render : Step → String
  | .key name => "." ++ name
  | .position index => Segment.renderPosition index

namespace Path

/-- Renders steps, one after the other. There is no dot before the first name. -/
def renderSteps : List Step → String
  | .key name :: steps => name ++ String.join (steps.map Step.render)
  | steps => String.join (steps.map Step.render)

/-- A segment is rendered by its steps. -/
theorem renderSteps_segment (segment : Segment) : renderSteps segment.steps = segment.render := by
  rw [Segment.steps, renderSteps, List.map_map]
  rfl

/-- A dot stands between the steps before a name and those from it on. -/
theorem renderSteps_append_key (name other : String) (steps others : List Step) :
    renderSteps (.key name :: steps ++ .key other :: others) =
      renderSteps (.key name :: steps) ++ "." ++ renderSteps (.key other :: others) := by
  simp [renderSteps, Step.render, String.append_assoc]

/-- A path is rendered by its steps. -/
theorem render_eq_renderSteps (path : Path) : path.render = renderSteps path.steps := by
  obtain ⟨segments⟩ := path
  rw [render, steps]
  induction segments with
  | nil => rfl
  | cons segment segments ih =>
    cases segments with
    | nil => simp [renderSteps_segment]
    | cons next segments =>
      rw [List.map_cons, List.map_cons, String.intercalate_cons_cons, ← List.map_cons, ih,
        ← renderSteps_segment]
      exact (renderSteps_append_key segment.name next.name _ _).symm

/-- The steps of a path start with a name. -/
theorem exists_key_of_spellsPath {text : List Char} {steps : List Step}
    (hpath : SpellsPath text steps) : ∃ name others, steps = .key name :: others := by
  cases hpath with
  | segment hsegment => cases hsegment; exact ⟨_, _, rfl⟩
  | dot hsegment => cases hsegment; exact ⟨_, _, rfl⟩

/-- Zeros are left out of each position by itself. -/
theorem dropZeros_position {digits : List Char} {position : Nat}
    (hnumber : SpellsNumber digits position) (rest : List Char) :
    dropZeros false ('[' :: (digits ++ ']' :: rest)) =
      '[' :: ((toString position).toList ++ ']' :: dropZeros false rest) := by
  rw [dropZeros, if_neg (by simp), ← dropZeros_digits hnumber]
  exact congrArg ('[' :: ·) (dropZeros_append_cons true digits rfl rest)

/-- Without their spare zeros, positions are what they are rendered as. -/
theorem dropZeros_positions {brackets : List Char} {positions : List Nat}
    (hpositions : SpellsPositions brackets positions) :
    dropZeros false brackets = (String.join (positions.map Segment.renderPosition)).toList := by
  induction hpositions with
  | nil => rfl
  | cons hnumber _ _ ih =>
    rw [dropZeros_position hnumber, ih]
    simp [Segment.renderPosition]

/-- Without its spare zeros, a segment is what its steps are rendered as. -/
theorem dropZeros_segment {text : List Char} {steps : List Step}
    (hsegment : SpellsSegment text steps) :
    dropZeros false text = (renderSteps steps).toList := by
  obtain ⟨hname, hpositions⟩ := hsegment
  rw [dropZeros_append hname.opening_not_mem, dropZeros_positions hpositions]
  simp [renderSteps, Step.render, Function.comp_def]

/-- Without its spare zeros, a path is what its steps are rendered as. -/
theorem dropZeros_path {text : List Char} {steps : List Step} (hpath : SpellsPath text steps) :
    dropZeros false text = (renderSteps steps).toList := by
  induction hpath with
  | segment hsegment => exact dropZeros_segment hsegment
  | dot hsegment hrest ih =>
    obtain ⟨name, own, rfl⟩ := exists_key_of_spellsPath (.segment hsegment)
    obtain ⟨other, others, rfl⟩ := exists_key_of_spellsPath hrest
    rw [renderSteps_append_key, dropZeros_append_cons false _ rfl, dropZeros_segment hsegment]
    simp [ih]

/-! ## Reading what is rendered -/

/-- Positions are spelled without their spare zeros, too. -/
theorem spellsPositions_dropZeros {brackets : List Char} {positions : List Nat}
    (hpositions : SpellsPositions brackets positions) :
    SpellsPositions (dropZeros false brackets) positions := by
  induction hpositions with
  | nil => exact .nil
  | cons hnumber hle _ ih =>
    rw [dropZeros_position hnumber]
    exact .cons (spellsNumber_toString_iff.mpr rfl) hle ih

/-- A segment is spelled without its spare zeros, too. -/
theorem spellsSegment_dropZeros {text : List Char} {steps : List Step}
    (hsegment : SpellsSegment text steps) : SpellsSegment (dropZeros false text) steps := by
  obtain ⟨hname, hpositions⟩ := hsegment
  rw [dropZeros_append hname.opening_not_mem]
  exact .mk hname (spellsPositions_dropZeros hpositions)

/-- A path is spelled without its spare zeros, too. -/
theorem spellsPath_dropZeros {text : List Char} {steps : List Step}
    (hpath : SpellsPath text steps) : SpellsPath (dropZeros false text) steps := by
  induction hpath with
  | segment hsegment => exact .segment (spellsSegment_dropZeros hsegment)
  | dot hsegment _ ih =>
    rw [dropZeros_append_cons false _ rfl]
    exact .dot (spellsSegment_dropZeros hsegment) ih

/-- Puts steps together to segments again: the positions up to the first name, and the segments from
there on. -/
def gather : List Step → List Nat × List Segment
  | [] => ([], [])
  | .position index :: steps => (index :: (gather steps).1, (gather steps).2)
  | .key name :: steps => ([], ⟨name, (gather steps).1⟩ :: (gather steps).2)

theorem gather_positions (positions : List Nat) (steps : List Step) :
    gather (positions.map .position ++ steps) =
      (positions ++ (gather steps).1, (gather steps).2) := by
  induction positions with
  | nil => rfl
  | cons index positions ih => rw [List.map_cons, List.cons_append, gather, ih, List.cons_append]

/-- The segments of a path are put together from its steps. -/
theorem gather_steps (path : Path) : gather path.steps = ([], path.segments) := by
  obtain ⟨segments⟩ := path
  rw [steps]
  induction segments with
  | nil => rfl
  | cons segment segments ih =>
    rw [List.flatMap_cons, Segment.steps, List.cons_append, gather, gather_positions, ih,
      List.append_nil]

/-- A path is given by its steps. -/
theorem steps_injective : Function.Injective steps := by
  intro path other hsteps
  have hgather := gather_steps path
  rw [hsteps, gather_steps other] at hgather
  exact congrArg Path.mk (congrArg Prod.snd hgather).symm

variable {field : String} {path : Path}

/-- A path is rendered as the text from which it was read, without spare zeros. -/
theorem toList_render_of_parse (hparse : parse field = .ok path) :
    path.render.toList = dropZeros false field.toList := by
  have hpath : SpellsPath field.toList path.steps :=
    spellsPath_iff.mpr ⟨path, parse_eq_ok_iff.mp hparse, rfl⟩
  rw [render_eq_renderSteps, dropZeros_path hpath]

/-- A path that was read is read again from its rendering. -/
theorem parse_render_of_parse (hparse : parse field = .ok path) : parse path.render = .ok path := by
  have hpath : SpellsPath field.toList path.steps :=
    spellsPath_iff.mpr ⟨path, parse_eq_ok_iff.mp hparse, rfl⟩
  have hagain := spellsPath_dropZeros hpath
  rw [← toList_render_of_parse hparse] at hagain
  obtain ⟨other, hread, hsteps⟩ := spellsPath_iff.mp hagain
  obtain rfl := steps_injective hsteps
  exact parse_eq_ok_iff.mpr hread

/-- A path that was read is rendered, step by step, as the text from which it was read, without the
zeros that can be spared, and this is the text itself exactly if there are none. The rendering is
read as the same path again, and two paths that were read are the same exactly if they are rendered
alike. -/
theorem render_of_parse (hparse : parse field = .ok path) :
    path.render = renderSteps path.steps ∧
      path.render.toList = dropZeros false field.toList ∧
      (path.render = field ↔ ¬ HasSpareZero field.toList) ∧
      parse path.render = .ok path ∧
      ∀ other otherPath, parse other = .ok otherPath →
        (otherPath = path ↔ otherPath.render = path.render) := by
  refine ⟨render_eq_renderSteps path, toList_render_of_parse hparse, ?_,
    parse_render_of_parse hparse, fun other otherPath hother => ⟨congrArg render, fun hsame => ?_⟩⟩
  · rw [← String.toList_inj, toList_render_of_parse hparse, dropZeros_eq_self_iff]
    simp
  · have hread := parse_render_of_parse hother
    rw [hsame, parse_render_of_parse hparse] at hread
    exact (Except.ok.inj hread).symm

/-- Zeros of a name stay, and so does the only digit of a position. -/
theorem render_of_parse_zeros :
    let path : Path := ⟨[⟨"a00", [7, 0]⟩, ⟨"_", [100]⟩]⟩
    parse "a00[007][00]._[0100]" = .ok path ∧ parse "a00[7][0]._[100]" = .ok path ∧
      path.render.toList = dropZeros false "a00[007][00]._[0100]".toList ∧
      path.render ≠ "a00[007][00]._[0100]" ∧ path.render = "a00[7][0]._[100]" ∧
      parse path.render = .ok path := by
  intro path
  have hspare : parse "a00[007][00]._[0100]" = .ok path := by decide
  have hnormal : parse "a00[7][0]._[100]" = .ok path := by decide
  have hnone : ¬ HasSpareZero "a00[7][0]._[100]".toList := by
    intro hzero
    exact ((dropZeros_eq_self_iff false _).mp (by decide)).2 hzero
  obtain ⟨_, hdropped, hself, hagain, _⟩ := render_of_parse hspare
  obtain ⟨_, _, hnormalSelf, _, _⟩ := render_of_parse hnormal
  refine ⟨hspare, hnormal, hdropped, fun hsame => ?_, hnormalSelf.mpr hnone, hagain⟩
  exact hself.mp hsame ⟨_, by decide, "a00[007]".toList, "]._[0100]".toList, rfl⟩

end Path

end RecordQuery
