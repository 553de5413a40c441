import Mathlib.Data.List.Basic
import RecordQuery.Path
import RecordQuery.Proofs.Outcome

/-!
# Texts of paths

A text that is a path starts like a name and has only letters, digits, underscores, dots and
brackets in it. No separator of the rendered language is among them: no blank, no parenthesis, no
sign of an operator and no placeholder.
-/

namespace RecordQuery

/-- A character of a text that is split at a separator is the separator, or lies in a piece. -/
theorem mem_splitOn_of_mem (separator : Char) {c : Char} {text : List Char} (hc : c ∈ text) :
    c = separator ∨ ∃ piece ∈ text.splitOn separator, c ∈ piece := by
  have hmem : ∀ pieces : List (List Char), c ∈ [separator].intercalate pieces →
      c = separator ∨ ∃ piece ∈ pieces, c ∈ piece := by
    intro pieces
    induction pieces with
    | nil => intro hnil; simp at hnil
    | cons piece pieces ih =>
      intro hcons
      by_cases hlast : pieces = []
      · subst hlast
        exact .inr ⟨piece, List.mem_cons_self, by simpa using hcons⟩
      · rw [List.intercalate_cons_of_ne_nil hlast, List.mem_append, List.mem_append,
          List.mem_singleton] at hcons
        rcases hcons with (hpiece | heq) | hrest
        · exact .inr ⟨piece, List.mem_cons_self, hpiece⟩
        · exact .inl heq
        · rcases ih hrest with heq | ⟨other, hother, hin⟩
          · exact .inl heq
          · exact .inr ⟨other, List.mem_cons_of_mem _ hother, hin⟩
  have htext : [separator].intercalate (text.splitOn separator) = text :=
    List.intercalate_splitOn separator
  exact hmem _ (by rwa [htext])

/-- A text starts like the first of the pieces into which it is split. -/
theorem head_of_splitOn {separator c : Char} {text first : List Char} {pieces : List (List Char)}
    (hsplit : text.splitOn separator = (c :: first) :: pieces) : ∃ rest, text = c :: rest := by
  have htext : [separator].intercalate (text.splitOn separator) = text :=
    List.intercalate_splitOn separator
  rw [hsplit, List.intercalate_cons_cons_left] at htext
  exact ⟨_, htext.symm⟩

namespace Segment

/-- The characters of a text that is a segment. -/
def isPart (c : Char) : Bool :=
  isNamePart c || c == '[' || c == ']'

/-- What can start a name can also go on with it. -/
theorem isNamePart_of_isNameStart {c : Char} (hc : isNameStart c = true) : isNamePart c = true := by
  simp only [isNameStart, isNamePart, Char.isAlphanum, Bool.or_eq_true] at hc ⊢
  rcases hc with halpha | hunderscore
  · exact .inl (.inl halpha)
  · exact .inr hunderscore

/-- A name starts like one, and has only parts of names in it. -/
theorem isName_iff {name : List Char} :
    isName name = true ↔ (∃ c rest, name = c :: rest ∧ isNameStart c = true) ∧
      ∀ c ∈ name, isNamePart c = true := by
  cases name with
  | nil => simp [isName]
  | cons c rest =>
    simp only [isName, Bool.and_eq_true, List.all_eq_true, List.mem_cons, forall_eq_or_imp]
    constructor
    · rintro ⟨hstart, hrest⟩
      exact ⟨⟨c, rest, rfl, hstart⟩, isNamePart_of_isNameStart hstart, hrest⟩
    · rintro ⟨⟨_, _, heq, hstart⟩, _, hrest⟩
      obtain ⟨rfl, rfl⟩ := List.cons.inj heq
      exact ⟨hstart, hrest⟩

/-- A position in brackets is one of digits, with the bracket that closes it. -/
theorem isPart_of_readPosition? {text : List Char} {position : Nat}
    (hread : readPosition? text = some position) : ∀ c ∈ text, isPart c = true := by
  unfold readPosition? at hread
  dsimp only at hread
  split at hread
  · next hdigits =>
    obtain ⟨hlast, _, hall, _⟩ := hdigits
    intro c hc
    rw [← List.dropLast_append_getLast? _ hlast, List.mem_append, List.mem_singleton] at hc
    rcases hc with hdigit | rfl
    · have hdigit := List.all_eq_true.mp hall c hdigit
      simp [isPart, isNamePart, Char.isAlphanum, hdigit]
    · rfl
  · cases hread

/-- A text that is a segment starts like a name, and has only names, digits and brackets in it. -/
theorem isPart_of_read? {text : List Char} {segment : Segment} (hread : read? text = some segment) :
    (∃ c rest, text = c :: rest ∧ isNameStart c = true) ∧ ∀ c ∈ text, isPart c = true := by
  unfold read? at hread
  split at hread
  · cases hread
  · next name brackets hsplit =>
    split at hread
    · next hname =>
      obtain ⟨positions, hpositions, _⟩ := Option.map_eq_some_iff.mp hread
      obtain ⟨⟨first, rest, rfl, hstart⟩, hparts⟩ := isName_iff.mp hname
      obtain ⟨tail, htext⟩ := head_of_splitOn hsplit
      refine ⟨⟨first, tail, htext, hstart⟩, fun c hc => ?_⟩
      rcases mem_splitOn_of_mem '[' hc with rfl | ⟨piece, hpiece, hin⟩
      · rfl
      · rw [hsplit] at hpiece
        rcases List.mem_cons.mp hpiece with rfl | hpiece
        · simp [isPart, hparts c hin]
        · obtain ⟨position, hposition⟩ := exists_of_mapM_eq_some hpositions hpiece
          exact isPart_of_readPosition? hposition c hin
    · cases hread

end Segment

namespace Path

/-- The characters of a text that is a path. -/
def isPart (c : Char) : Bool :=
  Segment.isPart c || c == '.'

/-- A text that is a path starts like a name, and has only names, digits, dots and brackets in it.
-/
theorem isPart_of_read? {text : List Char} {path : Path} (hread : read? text = some path) :
    (∃ c rest, text = c :: rest ∧ Segment.isNameStart c = true) ∧ ∀ c ∈ text, isPart c = true := by
  unfold read? at hread
  obtain ⟨segments, hsegments, _⟩ := Option.map_eq_some_iff.mp hread
  constructor
  · cases hsplit : text.splitOn '.' with
    | nil => exact absurd hsplit (List.splitOn_ne_nil '.' text)
    | cons first pieces =>
      have hfirst : first ∈ text.splitOn '.' := by simp [hsplit]
      obtain ⟨segment, hsegment⟩ := exists_of_mapM_eq_some hsegments hfirst
      obtain ⟨⟨c, rest, rfl, hstart⟩, _⟩ := Segment.isPart_of_read? hsegment
      obtain ⟨tail, htext⟩ := head_of_splitOn hsplit
      exact ⟨c, tail, htext, hstart⟩
  · intro c hc
    rcases mem_splitOn_of_mem '.' hc with rfl | ⟨piece, hpiece, hin⟩
    · rfl
    · obtain ⟨segment, hsegment⟩ := exists_of_mapM_eq_some hsegments hpiece
      simp [isPart, (Segment.isPart_of_read? hsegment).2 c hin]

/-- What is no part of paths is in no text that is a path. -/
theorem not_mem_of_read? {text : List Char} {path : Path} (hread : read? text = some path)
    {c : Char} (hc : isPart c = false) : c ∉ text := by
  intro hmem
  rw [(isPart_of_read? hread).2 c hmem] at hc
  cases hc

end Path

end RecordQuery
