import RecordQuery.Proofs.Sentence.Conditions

/-!
# Reading words

A text is cut into words from left to right. The first character of a word tells what it is, except
that a parenthesis may open a level or the call of a method; it opens a call if all of the call
stands behind it. Cutting is exact: it finds the one sequence of readable words with the given text,
and fails if there is none.
-/

namespace RecordQuery

open Text

namespace Word

/-- The word at the head of a text, and what follows it. -/
def read? : List Char → Option (Word × List Char)
  | ' ' :: rest =>
    (Connective.takeToken? rest).map fun (connective, rest) => (link connective, rest)
  | ')' :: rest => some (closing, rest)
  | '(' :: rest =>
    match Condition.readCall? rest with
    | some (condition, rest) => some (atom condition, rest)
    | none => some (opening, rest)
  | text => (Condition.readPlain? text).map fun (condition, rest) => (atom condition, rest)

/-- A word that has been read is readable, and stood at the head of the text. -/
theorem text_append_of_read? {text rest : List Char} {word : Word}
    (hread : read? text = some (word, rest)) : word.Readable ∧ word.text ++ rest = text := by
  unfold read? at hread
  split at hread
  · next behind =>
    obtain ⟨⟨connective, tail⟩, htoken, heq⟩ := Option.map_eq_some_iff.mp hread
    obtain ⟨rfl, rfl⟩ := Prod.mk.inj heq
    refine ⟨trivial, ?_⟩
    rw [← Connective.takeToken?_eq_some_iff.mp htoken]
    simp [Word.text]
  · next behind =>
    obtain ⟨rfl, rfl⟩ := Prod.mk.inj (Option.some.inj hread)
    exact ⟨trivial, rfl⟩
  · next behind =>
    split at hread
    · next condition tail hcall =>
      obtain ⟨rfl, rfl⟩ := Prod.mk.inj (Option.some.inj hread)
      obtain ⟨hreadable, _, htext⟩ := Condition.readCall?_eq_some_iff.mp hcall
      exact ⟨hreadable, htext⟩
    · obtain ⟨rfl, rfl⟩ := Prod.mk.inj (Option.some.inj hread)
      exact ⟨trivial, rfl⟩
  · obtain ⟨⟨condition, tail⟩, hplain, heq⟩ := Option.map_eq_some_iff.mp hread
    obtain ⟨rfl, rfl⟩ := Prod.mk.inj heq
    obtain ⟨hreadable, _, htext, _⟩ := Condition.readPlain?_eq_some_iff.mp hplain
    exact ⟨hreadable, htext⟩

/-- A text behind a word with which the word is not misread: an opening parenthesis stands before no
call, and a comparison before no digit. -/
def Fits : Word → List Char → Prop
  | opening, rest => Condition.readCall? rest = none
  | atom condition, rest => condition.EndsBefore rest
  | _, _ => True

/-- A readable word is read where it stands, if it fits what follows. -/
theorem read?_text_append {word : Word} {rest : List Char} (hreadable : word.Readable)
    (hfits : word.Fits rest) : read? (word.text ++ rest) = some (word, rest) := by
  cases word with
  | opening =>
    have hnone : Condition.readCall? rest = none := hfits
    simp [Word.text, read?, hnone]
  | closing => rfl
  | link connective =>
    have htoken : Connective.takeToken? (connective.token.toList ++ ' ' :: rest) =
        some (connective, rest) := Connective.takeToken?_eq_some_iff.mpr rfl
    simp [Word.text, read?, htoken]
  | atom condition =>
    cases hcall : condition.isCall with
    | false =>
      have hplain : Condition.readPlain? (condition.render.toList ++ rest) =
          some (condition, rest) :=
        Condition.readPlain?_eq_some_iff.mpr ⟨hreadable, hcall, rfl, hfits⟩
      obtain ⟨field, behind, hpath, htext⟩ :=
        Condition.toList_render_of_not_isCall hreadable hcall
      obtain ⟨⟨c, tail, rfl, hstart⟩, _⟩ := isPart_of_isPath hpath
      have hc : ∀ d, Segment.isNameStart d = false → c ≠ d := by
        rintro d hd rfl
        rw [hd] at hstart
        cases hstart
      rw [htext] at hplain
      rw [Word.text, htext]
      simp only [List.cons_append] at hplain ⊢
      rw [read?, hplain]
      · rfl
      · exact fun _ heq => hc ' ' (by decide) (List.cons.inj heq).1
      · exact fun _ heq => hc ')' (by decide) (List.cons.inj heq).1
      · exact fun _ heq => hc '(' (by decide) (List.cons.inj heq).1
    | true =>
      obtain ⟨tail, htail⟩ : ∃ tail, condition.render.toList = '(' :: tail := by
        cases condition with
        | method field op slot => exact ⟨_, Condition.toList_render_method field op slot⟩
        | _ => cases hcall
      have hread : Condition.readCall? (tail ++ rest) = some (condition, rest) := by
        refine Condition.readCall?_eq_some_iff.mpr ⟨hreadable, hcall, ?_⟩
        rw [htail]
        rfl
      rw [Word.text, htail, List.cons_append, read?, hread]

/-- No name starts with a digit. -/
theorem isDigit_eq_false_of_isNameStart {c : Char} (hc : Segment.isNameStart c = true) :
    c.isDigit = false := by
  by_contra hdigit
  rw [Bool.not_eq_false] at hdigit
  have hdigit : 48 ≤ c.val.toNat ∧ c.val.toNat ≤ 57 := by
    simpa [Char.isDigit, UInt32.le_iff_toNat_le] using hdigit
  -- The ranges of letters lie behind that of digits.
  have hc : ((decide (c.val ≥ 'A'.val ∧ c.val ≤ 'Z'.val) ||
      (decide (c.val ≥ 'a'.val) && decide (c.val ≤ 'z'.val))) || c == '_') = true := hc
  simp only [Bool.or_eq_true, Bool.and_eq_true, decide_eq_true_iff, beq_iff_eq, ge_iff_le,
    UInt32.le_iff_toNat_le] at hc
  rcases hc with (hupper | hlower) | rfl
  · have hA : 'A'.val.toNat = 65 := rfl
    omega
  · have ha : 'a'.val.toNat = 97 := rfl
    omega
  · exact absurd hdigit.2 (by decide)

/-- No readable word starts with a digit. -/
theorem stops_isDigit_text {word : Word} (hreadable : word.Readable) (rest : List Char) :
    word.text ≠ [] ∧ Stops Char.isDigit (word.text ++ rest) := by
  cases word with
  | opening => exact ⟨List.cons_ne_nil _ _, stops_cons rfl⟩
  | closing => exact ⟨List.cons_ne_nil _ _, stops_cons rfl⟩
  | link connective => exact ⟨List.cons_ne_nil _ _, stops_cons rfl⟩
  | atom condition =>
    cases hcall : condition.isCall with
    | false =>
      obtain ⟨field, behind, hpath, htext⟩ :=
        Condition.toList_render_of_not_isCall hreadable hcall
      obtain ⟨⟨c, tail, rfl, hstart⟩, _⟩ := isPart_of_isPath hpath
      rw [Word.text, htext]
      exact ⟨List.cons_ne_nil _ _, stops_cons (isDigit_eq_false_of_isNameStart hstart)⟩
    | true =>
      cases condition with
      | method field op slot =>
        rw [Word.text, Condition.toList_render_method]
        exact ⟨List.cons_ne_nil _ _, stops_cons rfl⟩
      | _ => cases hcall

/-- No readable word is misread as the rest of a call. -/
theorem readCall?_text_append {word : Word} (hreadable : word.Readable) (rest : List Char) :
    Condition.readCall? (word.text ++ rest) = none := by
  have hsign : ∀ (c : Char) (tail : List Char), Path.isPart c = false → c ≠ '!' →
      Condition.readCall? (c :: tail) = none := by
    intro c tail hc hnegation
    have hnil : ∀ d ∈ ([] : List Char), Path.isPart d = true := fun _ hd => by cases hd
    have hnone : Condition.readCall? ([] ++ c :: tail) = none :=
      Condition.readCall?_eq_none hnil (stops_cons hc) (by simpa using hnegation) (.inl rfl)
    rwa [List.nil_append] at hnone
  cases word with
  | opening => exact hsign _ _ (by decide) (by decide)
  | closing => exact hsign _ _ (by decide) (by decide)
  | link connective => exact hsign _ _ (by decide) (by decide)
  | atom condition =>
    cases hcall : condition.isCall with
    | false =>
      obtain ⟨field, behind, hpath, htext⟩ :=
        Condition.toList_render_of_not_isCall hreadable hcall
      obtain ⟨⟨c, tail, hfield, hstart⟩, hparts⟩ := isPart_of_isPath hpath
      rw [Word.text, htext, List.append_assoc]
      refine Condition.readCall?_eq_none hparts (stops_cons (by decide)) ?_ (.inr ?_)
      · rw [hfield, List.cons_append, List.head?_cons]
        intro heq
        rw [Option.some.inj heq] at hstart
        cases hstart
      · simp
    | true =>
      cases condition with
      | method field op slot =>
        rw [Word.text, Condition.toList_render_method]
        exact hsign _ _ (by decide) (by decide)
      | _ => cases hcall

/-- A word fits every text of readable words. -/
theorem fits_text (word : Word) {words : List Word} (hwords : ∀ next ∈ words, next.Readable) :
    word.Fits (words.flatMap text) := by
  cases words with
  | nil =>
    cases word with
    | opening => rfl
    | atom condition => cases condition <;> first | exact stops_nil _ | trivial
    | _ => trivial
  | cons next words =>
    have hnext := hwords next List.mem_cons_self
    rw [List.flatMap_cons]
    cases word with
    | opening => exact readCall?_text_append hnext _
    | atom condition =>
      cases condition with
      | compare field op slot => exact (stops_isDigit_text hnext _).2
      | _ => trivial
    | _ => trivial

/-- A word takes up a part of the text. -/
theorem length_lt_of_read? {text rest : List Char} {word : Word}
    (hread : read? text = some (word, rest)) : rest.length < text.length := by
  obtain ⟨hreadable, rfl⟩ := text_append_of_read? hread
  have hpos := List.length_pos_iff.mpr (stops_isDigit_text hreadable rest).1
  rw [List.length_append]
  omega

/-- Cuts a text into words. -/
def scan (text : List Char) : Option (List Word) :=
  if text = [] then some []
  else match _ : read? text with
    | some (word, rest) => (scan rest).map (word :: ·)
    | none => none
termination_by text.length
decreasing_by exact length_lt_of_read? ‹_›

/-- Where a word is read, the text goes on behind it. -/
theorem scan_of_read? {text rest : List Char} {word : Word}
    (hread : read? text = some (word, rest)) : scan text = (scan rest).map (word :: ·) := by
  have hne : text ≠ [] := by
    rintro rfl
    exact absurd (length_lt_of_read? hread) (Nat.not_lt_zero _)
  rw [scan, if_neg hne]
  split
  · next other tail hother =>
    obtain ⟨rfl, rfl⟩ := Prod.mk.inj (Option.some.inj (hread.symm.trans hother))
    rfl
  · next hnone => cases hread.symm.trans hnone

/-- A text is cut into the readable words of which it consists. -/
theorem scan_eq_some_iff {text : List Char} {words : List Word} :
    scan text = some words ↔
      (∀ word ∈ words, word.Readable) ∧ words.flatMap Word.text = text := by
  constructor
  · intro hscan
    induction text using scan.induct generalizing words with
    | case1 =>
      rw [scan, if_pos rfl] at hscan
      obtain rfl := Option.some.inj hscan
      exact ⟨fun _ hword => absurd hword List.not_mem_nil, rfl⟩
    | case2 text _ word rest hread ih =>
      rw [scan_of_read? hread] at hscan
      obtain ⟨others, hothers, rfl⟩ := Option.map_eq_some_iff.mp hscan
      obtain ⟨hreadable, rfl⟩ := ih hothers
      obtain ⟨hword, htext⟩ := text_append_of_read? hread
      exact ⟨List.forall_mem_cons.mpr ⟨hword, hreadable⟩, htext⟩
    | case3 text hne hread =>
      rw [scan, if_neg hne] at hscan
      split at hscan
      · next word rest hsome => cases hread.symm.trans hsome
      · cases hscan
  · rintro ⟨hwords, rfl⟩
    induction words with
    | nil => rw [scan, List.flatMap_nil, if_pos rfl]
    | cons word words ih =>
      obtain ⟨hword, hrest⟩ := List.forall_mem_cons.mp hwords
      have hread := read?_text_append hword (fits_text word hrest)
      rw [List.flatMap_cons, scan_of_read? hread, ih hrest]
      rfl

end Word

end RecordQuery
