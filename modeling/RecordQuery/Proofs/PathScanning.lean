import RecordQuery.Proofs.PathGrammar

/-!
# Scanning paths by offsets

A path can also be scanned with slices. The scanner looks for the next bracket, takes the slice up
to it, and goes on behind it, until nothing of the segment is left. Offsets count bytes, as a text
has them in UTF-8. Such a scanner could break down: a slice may lie outside of its text or cut a
character in two, and the loop over the brackets may not end. It does neither. In as many rounds as
the text has characters it finds the steps that the text spells, or rejects a text that is no path.
-/

namespace RecordQuery

/-! ## Offsets -/

namespace Text

/-- The number of bytes of a text. -/
def size : List Char → Nat
  | [] => 0
  | c :: rest => c.utf8Size + size rest

/-- Cuts a text at an offset, which must lie between two characters or at an end. -/
def cutAt? : Nat → List Char → Option (List Char × List Char)
  | 0, text => some ([], text)
  | _ + 1, [] => none
  | offset + 1, c :: rest =>
    if offset + 1 < c.utf8Size then none
    else (cutAt? (offset + 1 - c.utf8Size) rest).map fun (front, back) => (c :: front, back)

/-- The part of a text from an offset on. -/
def sliceFrom? (start : Nat) (text : List Char) : Option (List Char) :=
  (cutAt? start text).map (·.2)

/-- The part of a text between two offsets. -/
def slice? (start stop : Nat) (text : List Char) : Option (List Char) :=
  (cutAt? stop text).bind fun (front, _) => sliceFrom? start front

/-- The offset of the first occurrence of a character. -/
def offsetOf? (c : Char) : List Char → Option Nat
  | [] => none
  | d :: rest => if d = c then some 0 else (offsetOf? c rest).map (d.utf8Size + ·)

/-- There is no slice that ends within a character. -/
example : slice? 0 1 ['é', 'a'] = none := by decide

/-- A text is cut behind any number of its characters. -/
theorem cutAt?_size_append (front back : List Char) :
    cutAt? (size front) (front ++ back) = some (front, back) := by
  induction front with
  | nil => rw [size, List.nil_append, cutAt?]
  | cons c front ih =>
    obtain ⟨offset, hoffset⟩ : ∃ offset, c.utf8Size + size front = offset + 1 :=
      Nat.exists_eq_succ_of_ne_zero (by have := c.utf8Size_pos; omega)
    rw [size, hoffset, List.cons_append, cutAt?, if_neg (by omega), ← hoffset,
      Nat.add_sub_cancel_left, ih]
    rfl

theorem size_append (front back : List Char) : size (front ++ back) = size front + size back := by
  induction front with
  | nil => exact (Nat.zero_add _).symm
  | cons c front ih => rw [List.cons_append, size, size, ih, Nat.add_assoc]

/-- The slice behind any number of characters. -/
theorem sliceFrom?_size_append (front back : List Char) :
    sliceFrom? (size front) (front ++ back) = some back := by
  rw [sliceFrom?, cutAt?_size_append]
  rfl

/-- The slice between any two numbers of characters. -/
theorem slice?_size_append (front part back : List Char) :
    slice? (size front) (size (front ++ part)) (front ++ (part ++ back)) = some part := by
  rw [slice?, ← List.append_assoc, cutAt?_size_append]
  exact sliceFrom?_size_append front part

/-- A character is found behind a text in which it does not occur. -/
theorem offsetOf?_append_cons {c : Char} {front : List Char} (hfront : c ∉ front)
    (rest : List Char) : offsetOf? c (front ++ c :: rest) = some (size front) := by
  induction front with
  | nil => rw [List.nil_append, offsetOf?, if_pos rfl, size]
  | cons d front ih =>
    obtain ⟨hne, hfront⟩ := not_or.mp (mt List.mem_cons.mpr hfront)
    rw [List.cons_append, offsetOf?, if_neg (Ne.symm hne), ih hfront]
    rfl

/-- A character that does not occur is not found. -/
theorem offsetOf?_eq_none {c : Char} {text : List Char} (htext : c ∉ text) :
    offsetOf? c text = none := by
  induction text with
  | nil => rfl
  | cons d text ih =>
    obtain ⟨hne, htext⟩ := not_or.mp (mt List.mem_cons.mpr htext)
    rw [offsetOf?, if_neg (Ne.symm hne), ih htext]
    rfl

end Text

/-! ## The scanner -/

/-- What can break a scan off. -/
inductive Breakdown where
  /-- A slice does not lie in its text. -/
  | outOfRange
  /-- The loop over the brackets has not ended. -/
  | unfinished
  deriving Repr, DecidableEq

/-- A scan that has not broken down has a result, or rejects what it scans. -/
abbrev Scan (α : Type) := ExceptT Fault (Except Breakdown) α

namespace Path

/-- A slice, which must lie in its text. -/
def inRange (part : Option (List Char)) : Scan (List Char) :=
  ExceptT.mk (part.elim (.error .outOfRange) fun part => .ok (.ok part))

/-- One round of the loop: the position behind an opening bracket, and what follows the bracket that
closes it. -/
def scanPosition (field : String) (rest : List Char) : Scan (Nat × List Char) :=
  match Text.offsetOf? ']' rest with
  | none => throw (.field field)
  | some close => do
    let digits ← inRange (Text.slice? 1 close rest)
    if digits = [] ∨ digits.any (!·.isDigit) then
      throw (.field field)
    if Number.maxWord < Number.digitsValue digits then
      throw (.field field)
    let behind ← inRange (Text.sliceFrom? (close + 1) rest)
    if behind ≠ [] ∧ behind.head? ≠ some '[' then
      throw (.field field)
    pure (Number.digitsValue digits, behind)

/-- The loop over the brackets of a segment. It is broken off after a number of rounds. -/
def scanPositions (field : String) : Nat → List Char → Scan (List Nat)
  | _, [] => pure []
  | 0, _ :: _ => ExceptT.mk (.error .unfinished)
  | rounds + 1, c :: rest => do
    let (position, behind) ← scanPosition field (c :: rest)
    let positions ← scanPositions field rounds behind
    pure (position :: positions)

/-- The name of a segment and what follows it. -/
def scanName (segment : List Char) : Scan (List Char × List Char) :=
  match Text.offsetOf? '[' segment with
  | none => pure (segment, [])
  | some opening => do
    let name ← inRange (Text.slice? 0 opening segment)
    let brackets ← inRange (Text.sliceFrom? opening segment)
    pure (name, brackets)

/-- The steps of a segment. -/
def scanSegment (field : String) (rounds : Nat) (segment : List Char) : Scan (List Step) := do
  let (name, brackets) ← scanName segment
  if !Segment.isName name then
    throw (.field field)
  let positions ← scanPositions field rounds brackets
  pure (.key (String.ofList name) :: positions.map .position)

/-- The steps of a path. -/
def scan (rounds : Nat) (field : String) : Scan (List Step) := do
  if field = "" then
    throw (.field field)
  let segments ← (field.toList.splitOn '.').mapM (scanSegment field rounds)
  pure segments.flatten

end Path

/-! ## What a scan settles -/

/-- A scan does not break down. It finds the one result that has a property, and rejects the field
if there is none. -/
def Settles {α : Type} (field : String) (scan : Scan α) (P : α → Prop) : Prop :=
  ∃ found : Option α, scan.run = .ok (found.elim (.error (.field field)) .ok) ∧
    ∀ a, P a ↔ found = some a

section Settles

variable {α β : Type} {field : String} {scan : Scan α} {next : α → Scan β} {P Q : α → Prop}
  {R : α → β → Prop}

/-- What is settled may be said in other words. -/
theorem Settles.congr (hscan : Settles field scan P) (hiff : ∀ a, P a ↔ Q a) :
    Settles field scan Q := by
  obtain ⟨found, hrun, hfound⟩ := hscan
  exact ⟨found, hrun, fun a => (hiff a).symm.trans (hfound a)⟩

/-- A result is settled at once. -/
theorem settles_pure (field : String) (a : α) : Settles field (pure a) (a = ·) :=
  ⟨some a, rfl, fun b => by simp⟩

/-- Where nothing has a property, rejecting is right. -/
theorem settles_throw (hnone : ∀ a, ¬ P a) : Settles field (throw (.field field)) P :=
  ⟨none, rfl, fun a => by simp [hnone a]⟩

/-- A check in front of a scan only adds its condition. -/
theorem Settles.unless {bad : Prop} [Decidable bad] (hscan : Settles field scan P) :
    Settles field (if bad then throw (.field field) else scan) fun a => ¬ bad ∧ P a := by
  by_cases hbad : bad
  · rw [if_pos hbad]
    exact settles_throw fun a hboth => hboth.1 hbad
  · rw [if_neg hbad]
    exact hscan.congr fun a => (and_iff_right hbad).symm

/-- A scan goes on with the result of another one. -/
theorem Settles.bind (hscan : Settles field scan P)
    (hnext : ∀ a, P a → Settles field (next a) (R a)) :
    Settles field (scan >>= next) fun b => ∃ a, P a ∧ R a b := by
  obtain ⟨found, hrun, hfound⟩ := hscan
  cases found with
  | none =>
    refine ⟨none, ?_, fun b => ?_⟩
    · rw [ExceptT.run_bind, hrun]
      rfl
    · simp [hfound]
  | some a =>
    obtain ⟨found, hrunNext, hfoundNext⟩ := hnext a ((hfound a).mpr rfl)
    refine ⟨found, ?_, fun b => ?_⟩
    · rw [ExceptT.run_bind, hrun]
      exact hrunNext
    · simp [hfound, hfoundNext]

/-- A scan of several items settles what each of them is. -/
theorem Settles.mapM {γ : Type} {items : List γ} {next : γ → Scan α} {R : γ → α → Prop}
    (hitems : ∀ item ∈ items, Settles field (next item) (R item)) :
    Settles field (items.mapM next) (List.Forall₂ R items) := by
  induction items with
  | nil => exact (settles_pure field []).congr fun found => by simp [eq_comm]
  | cons item items ih =>
    obtain ⟨hitem, hitems⟩ := List.forall_mem_cons.mp hitems
    rw [List.mapM_cons]
    refine (hitem.bind fun first _ => (ih hitems).bind fun rest _ =>
      settles_pure field (first :: rest)).congr fun found => ?_
    rw [List.forall₂_cons_left_iff]
    constructor
    · rintro ⟨first, hfirst, rest, hrest, rfl⟩
      exact ⟨first, rest, hfirst, hrest, rfl⟩
    · rintro ⟨first, rest, hfirst, hrest, rfl⟩
      exact ⟨first, hfirst, rest, hrest, rfl⟩

end Settles

namespace Path

variable {field : String}

/-- Both slices of a round lie in its text: the first one ends at the closing bracket, and the
second one starts behind it. -/
theorem scanPosition_eq {front : List Char} (hfront : ']' ∉ front) (rest : List Char) :
    scanPosition field ('[' :: (front ++ ']' :: rest)) =
      if front = [] ∨ front.any (!·.isDigit) then throw (.field field)
      else if Number.maxWord < Number.digitsValue front then throw (.field field)
      else if rest ≠ [] ∧ rest.head? ≠ some '[' then throw (.field field)
      else pure (Number.digitsValue front, rest) := by
  have hopened : ']' ∉ '[' :: front := by simpa using hfront
  have hclose : Text.offsetOf? ']' ('[' :: (front ++ ']' :: rest)) =
      some (Text.size ('[' :: front)) := Text.offsetOf?_append_cons hopened rest
  have hdigits : Text.slice? 1 (Text.size ('[' :: front)) ('[' :: (front ++ ']' :: rest)) =
      some front := Text.slice?_size_append ['['] front (']' :: rest)
  have hbehind : Text.sliceFrom? (Text.size ('[' :: front) + 1) ('[' :: (front ++ ']' :: rest)) =
      some rest := by
    have hsize : Text.size ('[' :: front) + 1 = Text.size ('[' :: front ++ [']']) :=
      (Text.size_append ('[' :: front) [']']).symm
    have htext : '[' :: (front ++ ']' :: rest) = ('[' :: front ++ [']']) ++ rest := by simp
    rw [hsize, htext, Text.sliceFrom?_size_append]
  rw [scanPosition, hclose]
  dsimp only
  rw [hdigits, hbehind]
  rfl

/-- What a round is to find behind an opening bracket: a position, and what follows it, which is
nothing or another opening bracket. -/
def SpellsRound (tail : List Char) (round : Nat × List Char) : Prop :=
  ∃ digits, tail = digits ++ ']' :: round.2 ∧ SpellsNumber digits round.1 ∧
    round.1 ≤ Number.maxWord ∧ Text.Stops (· != '[') round.2

/-- A round settles which position stands up to the next closing bracket. -/
theorem settles_scanPosition (field : String) (tail : List Char) :
    Settles field (scanPosition field ('[' :: tail)) (SpellsRound tail) := by
  by_cases hmem : ']' ∈ tail
  · obtain ⟨front, rest, rfl, hfront⟩ := List.eq_append_cons_of_mem hmem
    rw [scanPosition_eq hfront]
    refine (settles_pure field (Number.digitsValue front, rest)).unless.unless.unless.congr ?_
    rintro ⟨position, behind⟩
    have hdigits : (¬ (front = [] ∨ front.any (!·.isDigit) = true)) ↔
        front ≠ [] ∧ ∀ c ∈ front, IsDigit c := by
      simp [← isDigit_iff]
    have hstops : (¬ (rest ≠ [] ∧ rest.head? ≠ some '[')) ↔ Text.Stops (· != '[') rest := by
      cases rest <;> simp [Text.Stops]
    rw [hdigits, hstops, Nat.not_lt, Prod.mk.injEq, SpellsRound]
    constructor
    · rintro ⟨⟨hne, hall⟩, hle, hrest, rfl, rfl⟩
      exact ⟨front, rfl, spellsNumber_iff.mpr ⟨hne, hall, rfl⟩, hle, hrest⟩
    · rintro ⟨digits, htext, hnumber, hle, hbehind⟩
      obtain ⟨rfl, rfl⟩ := eq_and_eq_of_append_cons hfront (hnumber.not_mem (by decide)) htext
      obtain ⟨hne, hall, rfl⟩ := spellsNumber_iff.mp hnumber
      exact ⟨⟨hne, hall⟩, hle, hbehind, rfl, rfl⟩
  · rw [scanPosition, Text.offsetOf?_eq_none (by simpa using hmem)]
    refine settles_throw fun ⟨position, behind⟩ => ?_
    rintro ⟨digits, rfl, _⟩
    simp at hmem

/-- The loop settles which positions stand behind a name, if it may go through as many rounds as
there are characters: each round leaves fewer of them. -/
theorem settles_scanPositions (field : String) {rounds : Nat} {brackets : List Char}
    (hbrackets : Text.Stops (· != '[') brackets) (hrounds : brackets.length ≤ rounds) :
    Settles field (scanPositions field rounds brackets) (SpellsPositions brackets) := by
  induction rounds generalizing brackets with
  | zero =>
    obtain rfl := List.length_eq_zero_iff.mp (Nat.le_zero.mp hrounds)
    exact (settles_pure field []).congr fun positions => by rw [spellsPositions_nil_iff, eq_comm]
  | succ rounds ih =>
    cases brackets with
    | nil =>
      exact (settles_pure field []).congr fun positions => by
        rw [spellsPositions_nil_iff, eq_comm]
    | cons c tail =>
      obtain rfl : c = '[' := by simpa using hbrackets c rfl
      rw [scanPositions]
      have hround : ∀ round, SpellsRound tail round →
          Settles field (do
            let positions ← scanPositions field rounds round.2
            pure (round.1 :: positions))
          fun positions => ∃ others, SpellsPositions round.2 others ∧
            round.1 :: others = positions := by
        rintro ⟨position, behind⟩ ⟨digits, rfl, _, _, hbehind⟩
        have hlength : behind.length ≤ rounds := by
          simp only [List.length_cons, List.length_append] at hrounds
          omega
        exact (ih hbehind hlength).bind fun others _ => settles_pure field (position :: others)
      refine ((settles_scanPosition field tail).bind hround).congr fun positions => ?_
      rw [spellsPositions_cons_iff]
      constructor
      · rintro ⟨⟨position, behind⟩, ⟨digits, rfl, hnumber, hle, _⟩, others, hothers, rfl⟩
        exact ⟨digits, behind, position, others, rfl, rfl, hnumber, hle, hothers⟩
      · rintro ⟨digits, behind, position, others, rfl, rfl, hnumber, hle, hothers⟩
        exact ⟨⟨position, behind⟩, ⟨digits, rfl, hnumber, hle, hothers.stops⟩, others, hothers, rfl⟩

/-- A text is cut at its first opening bracket, if it has one. -/
theorem scanName_append {name brackets : List Char} (hname : '[' ∉ name)
    (hbrackets : Text.Stops (· != '[') brackets) :
    scanName (name ++ brackets) = pure (name, brackets) := by
  cases brackets with
  | nil => rw [List.append_nil, scanName, Text.offsetOf?_eq_none hname]
  | cons c tail =>
    obtain rfl : c = '[' := by simpa using hbrackets c rfl
    have hslice : Text.slice? 0 (Text.size name) (name ++ '[' :: tail) = some name :=
      Text.slice?_size_append [] name ('[' :: tail)
    rw [scanName, Text.offsetOf?_append_cons hname]
    dsimp only
    rw [hslice, Text.sliceFrom?_size_append]
    rfl

/-- The steps of a segment are settled. -/
theorem settles_scanSegment (field : String) {rounds : Nat} {segment : List Char}
    (hrounds : segment.length ≤ rounds) :
    Settles field (scanSegment field rounds segment) (SpellsSegment segment) := by
  obtain ⟨name, brackets, rfl, hname, hbrackets⟩ := exists_append_of_opening segment
  have hlength : brackets.length ≤ rounds := by
    rw [List.length_append] at hrounds
    omega
  have hpositions := ((settles_scanPositions field hbrackets hlength).bind fun positions _ =>
    settles_pure field (Step.key (String.ofList name) :: positions.map .position))
  have hsegment : scanSegment field rounds (name ++ brackets) =
      if Segment.isName name = false then throw (.field field)
      else scanPositions field rounds brackets >>= fun positions =>
        pure (.key (String.ofList name) :: positions.map .position) := by
    rw [scanSegment, scanName_append hname hbrackets, pure_bind]
    cases hisName : Segment.isName name <;> simp [hisName]
  rw [hsegment]
  refine hpositions.unless.congr fun steps => ?_
  rw [spellsSegment_append_iff hname hbrackets, spellsName_iff, Bool.not_eq_false]
  simp only [eq_comm]

/-- The steps of a path are settled, segment by segment. -/
theorem settles_scan {rounds : Nat} (hrounds : field.length ≤ rounds) :
    Settles field (scan rounds field) (SpellsPath field.toList) := by
  have hpieces : ∀ piece ∈ field.toList.splitOn '.',
      Settles field (scanSegment field rounds piece) (SpellsSegment piece) := by
    intro piece hpiece
    have hlength := length_le_of_mem_splitOn hpiece
    rw [String.length_toList] at hlength
    exact settles_scanSegment field (hlength.trans hrounds)
  have hsegments := (Settles.mapM hpieces).bind fun segments _ =>
    settles_pure field segments.flatten
  refine hsegments.unless.congr fun steps => ?_
  rw [← spellsPath_iff_forall₂]
  exact and_iff_right_of_imp fun hpath hempty => hpath.ne_nil (hempty ▸ String.toList_empty)

/-- With fewer rounds than there are brackets the scan is broken off. -/
example : (scan 1 "a[0][1]").run = .error .unfinished := by decide

/-- Parsing accepts exactly the texts of the grammar and reads the steps that they spell. Every
other field is rejected, and named in full. The scan by offsets comes to the same end, in as many
rounds as there are characters or more. -/
theorem parse_iff_spells (field : String) :
    (∀ steps, SpellsPath field.toList steps ↔
      ∃ path, parse field = .ok path ∧ path.steps = steps) ∧
    (∀ fault, parse field = .error fault ↔
      fault = .field field ∧ ∀ steps, ¬ SpellsPath field.toList steps) ∧
    ∀ extra, (scan (field.length + extra) field).run = .ok ((parse field).map steps) := by
  have hspells : ∀ steps, SpellsPath field.toList steps ↔
      ∃ path, parse field = .ok path ∧ path.steps = steps := by
    intro steps
    rw [spellsPath_iff, parse]
    cases read? field.toList <;> simp
  refine ⟨hspells, fun fault => ?_, fun extra => ?_⟩
  · simp only [hspells]
    rw [parse]
    cases read? field.toList <;> simp [eq_comm]
  · obtain ⟨found, hrun, hfound⟩ := settles_scan (Nat.le_add_right field.length extra)
    have hread : found = (read? field.toList).map steps :=
      Option.ext fun result => by rw [← hfound, spellsPath_iff, Option.map_eq_some_iff]
    rw [hrun, hread, parse]
    cases read? field.toList <;> rfl

end Path

end RecordQuery
