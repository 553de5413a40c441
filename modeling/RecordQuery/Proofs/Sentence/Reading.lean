import RecordQuery.Proofs.Sentence.Words

/-!
# Reading sentences

A sentence is read word by word. What has been read so far is a draft: the operand at hand, what
stands before it on its level, and what stands before the levels that are still open. Reading is
exact: a text is read as the one sentence of the language with this text, and as nothing if there is
none.
-/

namespace RecordQuery

/-- What stands before an operand on its level: operands with the connectives behind them, the last
one first. -/
abbrev Front := List (Operand × Connective)

namespace Front

/-- The words of a front. -/
def words : Front → List Word
  | [] => []
  | (operand, connective) :: front => words front ++ (operand.words ++ [.link connective])

/-- The level that has a given sentence behind a front. -/
def close : Front → Sentence → Sentence
  | [], sentence => sentence
  | (operand, connective) :: front, sentence => close front (.join operand connective sentence)

/-- Closing a level keeps the words. -/
theorem words_close (front : Front) (sentence : Sentence) :
    (front.close sentence).words = words front ++ sentence.words := by
  induction front generalizing sentence with
  | nil => rfl
  | cons item front ih =>
    obtain ⟨operand, connective⟩ := item
    rw [close, ih, Sentence.words, words]
    simp

end Front

/-- The words before an open level. -/
def Front.outerWords : List Front → List Word
  | [] => []
  | front :: outer => outerWords outer ++ (front.words ++ [.opening])

/-- What has been read of a text. -/
structure Draft where
  /-- The operand at hand. -/
  operand : Operand := .blank
  /-- What stands before it on its level. -/
  front : Front := []
  /-- What stands before the open levels, the innermost one first. -/
  outer : List Front := []

namespace Draft

/-- The words of which a draft has been made. -/
def words (draft : Draft) : List Word :=
  Front.outerWords draft.outer ++ (draft.front.words ++ draft.operand.words)

/-- The level at hand as a sentence. -/
def sentence (draft : Draft) : Sentence :=
  draft.front.close (.last draft.operand)

/-- The draft with one more word. A condition and an opening parenthesis start an operand, so none
may be there yet; a closing parenthesis needs an open level. -/
def next? : Draft → Word → Option Draft
  | ⟨.blank, front, outer⟩, .opening => some ⟨.blank, [], front :: outer⟩
  | ⟨operand, front, before :: outer⟩, .closing =>
    some ⟨.level (front.close (.last operand)), before, outer⟩
  | ⟨operand, front, outer⟩, .link connective =>
    some ⟨.blank, (operand, connective) :: front, outer⟩
  | ⟨.blank, front, outer⟩, .atom condition => some ⟨.atom condition, front, outer⟩
  | _, _ => none

theorem next?_link (operand : Operand) (front : Front) (outer : List Front)
    (connective : Connective) : next? ⟨operand, front, outer⟩ (.link connective) =
      some ⟨.blank, (operand, connective) :: front, outer⟩ := by
  cases operand <;> cases outer <;> rfl

theorem next?_closing (operand : Operand) (front before : Front) (outer : List Front) :
    next? ⟨operand, front, before :: outer⟩ .closing =
      some ⟨.level (front.close (.last operand)), before, outer⟩ := by
  cases operand <;> rfl

/-- One more word is one more word of the draft. -/
theorem words_of_next? {draft later : Draft} {word : Word} (hnext : draft.next? word = some later) :
    later.words = draft.words ++ [word] := by
  unfold next? at hnext
  split at hnext
  · obtain rfl := Option.some.inj hnext
    simp [words, Front.outerWords, Front.words, Operand.words]
  · obtain rfl := Option.some.inj hnext
    simp [words, Front.outerWords, Operand.words, Front.words_close, Sentence.words]
  · obtain rfl := Option.some.inj hnext
    simp [words, Front.words, Operand.words]
  · obtain rfl := Option.some.inj hnext
    simp [words, Operand.words]
  · cases hnext

/-- A draft has all the words that have been read. -/
theorem words_of_foldlM {draft later : Draft} {words : List Word}
    (hread : words.foldlM next? draft = some later) : later.words = draft.words ++ words := by
  induction words generalizing draft with
  | nil =>
    obtain rfl := Option.some.inj hread
    rw [List.append_nil]
  | cons word words ih =>
    obtain ⟨middle, hnext, hrest⟩ := Option.bind_eq_some_iff.mp hread
    rw [ih hrest, words_of_next? hnext, List.append_assoc, List.singleton_append]

mutual

/-- The words of an operand make it the operand at hand. -/
theorem foldlM_operand : ∀ (operand : Operand) (front : Front) (outer : List Front),
    operand.words.foldlM next? ⟨.blank, front, outer⟩ = some ⟨operand, front, outer⟩
  | .blank, _, _ => rfl
  | .atom _, _, _ => rfl
  | .level inner, front, outer => by
    obtain ⟨⟨operand, inside, _⟩, hread, hsentence, rfl⟩ :=
      foldlM_sentence inner [] (front :: outer)
    rw [Operand.words, List.cons_append, List.foldlM_cons, next?, Option.bind_eq_bind,
      Option.bind_some, List.foldlM_append, hread, Option.bind_eq_bind, Option.bind_some,
      List.foldlM_cons, next?_closing]
    have hinner : inside.close (.last operand) = inner := hsentence
    rw [hinner]
    rfl

/-- The words of a sentence make a draft of its level. -/
theorem foldlM_sentence : ∀ (sentence : Sentence) (front : Front) (outer : List Front),
    ∃ draft, sentence.words.foldlM next? ⟨.blank, front, outer⟩ = some draft ∧
      draft.sentence = front.close sentence ∧ draft.outer = outer
  | .last operand, front, outer =>
    ⟨⟨operand, front, outer⟩, foldlM_operand operand front outer, rfl, rfl⟩
  | .join operand connective rest, front, outer => by
    obtain ⟨draft, hread, hsentence, houter⟩ :=
      foldlM_sentence rest ((operand, connective) :: front) outer
    refine ⟨draft, ?_, hsentence, houter⟩
    rw [Sentence.words, List.foldlM_append, foldlM_operand operand front outer,
      Option.bind_eq_bind, Option.bind_some, List.foldlM_cons, next?_link]
    exact hread

end

end Draft

namespace Sentence

/-- The sentence with given words. -/
def ofWords? (words : List Word) : Option Sentence :=
  (words.foldlM Draft.next? {}).bind fun draft =>
    if draft.outer.isEmpty then some draft.sentence else none

/-- A sentence is found from its words, and from no others. -/
theorem ofWords?_eq_some_iff {words : List Word} {sentence : Sentence} :
    ofWords? words = some sentence ↔ sentence.words = words := by
  constructor
  · intro hread
    obtain ⟨draft, hfold, hread⟩ := Option.bind_eq_some_iff.mp hread
    have hwords := Draft.words_of_foldlM hfold
    split at hread
    · next hempty =>
      obtain rfl := Option.some.inj hread
      rw [List.isEmpty_iff] at hempty
      rw [Draft.words, hempty] at hwords
      rw [Draft.sentence, Front.words_close]
      exact hwords
    · cases hread
  · rintro rfl
    obtain ⟨draft, hfold, hsentence, houter⟩ := Draft.foldlM_sentence sentence [] []
    refine Option.bind_eq_some_iff.mpr ⟨draft, hfold, ?_⟩
    rw [houter]
    exact congrArg some hsentence

/-- Reads a text as a sentence. -/
def read? (text : List Char) : Option Sentence :=
  (Word.scan text).bind ofWords?

/-- A text is read as the sentence of the language with this text. -/
theorem read?_eq_some_iff {text : List Char} {sentence : Sentence} :
    read? text = some sentence ↔ sentence.Readable ∧ sentence.text = text := by
  simp only [read?, Option.bind_eq_some_iff, Word.scan_eq_some_iff, ofWords?_eq_some_iff]
  constructor
  · rintro ⟨_, hwords, rfl⟩
    exact hwords
  · exact fun hwords => ⟨_, hwords, rfl⟩

/-- No two sentences of the language have the same text. -/
theorem text_injective {first second : Sentence} (hfirst : first.Readable)
    (hsecond : second.Readable) (htext : first.text = second.text) : first = second := by
  have hread := read?_eq_some_iff.mpr ⟨hfirst, htext⟩
  rw [read?_eq_some_iff.mpr ⟨hsecond, rfl⟩] at hread
  exact (Option.some.inj hread).symm

end Sentence

end RecordQuery
