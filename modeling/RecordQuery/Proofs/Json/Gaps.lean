import Mathlib.Data.List.Chain
import RecordQuery.Proofs.Json.Documents

/-!
# Gaps between tokens

A token is read from a piece of the text, and from the same piece in any other text, unless it is a
number and the text goes on with it. In a document no number stands right behind another one. So the
gaps between the tokens of a document can be changed, and it is still the same document.
-/

namespace RecordQuery

open Text

/-! ## Pieces of tokens -/

/-- What is read of a string literal is a piece of the text, and the same is read from this piece
whatever follows it. -/
theorem StringLiteral.exists_piece_of_readPoints {text rest : List Char} {points : List Nat}
    (hread : readPoints text = some (points, rest)) :
    ∃ piece, text = piece ++ rest ∧
      ∀ other, readPoints (piece ++ other) = some (points, other) := by
  fun_induction readPoints text generalizing points rest with
  | case1 => cases hread
  | case2 tail =>
    obtain ⟨rfl, rfl⟩ := Prod.mk.inj (Option.some.inj hread)
    exact ⟨['"'], rfl, fun other => rfl⟩
  | case3 a b c d tail ih =>
    simp only [Option.bind_eq_bind, Option.bind_eq_some_iff] at hread
    obtain ⟨point, hpoint, ⟨others, _⟩, htail, heq⟩ := hread
    obtain ⟨rfl, rfl⟩ := Prod.mk.inj (Option.some.inj heq)
    obtain ⟨piece, rfl, hpiece⟩ := ih htail
    refine ⟨'\\' :: 'u' :: a :: b :: c :: d :: piece, rfl, fun other => ?_⟩
    simp only [List.cons_append]
    rw [readPoints, hpoint, hpiece other]
    rfl
  | case4 letter tail hunit ih =>
    simp only [Option.bind_eq_bind, Option.bind_eq_some_iff] at hread
    obtain ⟨point, hpoint, ⟨others, _⟩, htail, heq⟩ := hread
    obtain ⟨rfl, rfl⟩ := Prod.mk.inj (Option.some.inj heq)
    obtain ⟨piece, rfl, hpiece⟩ := ih htail
    have hletter : letter ≠ 'u' := by
      rintro rfl
      cases hpoint
    refine ⟨'\\' :: letter :: piece, rfl, fun other => ?_⟩
    simp only [List.cons_append]
    rw [readPoints.eq_4 _ _ fun _ _ _ _ _ hu _ => hletter hu, hpoint, hpiece other]
    rfl
  | case5 => cases hread
  | case6 c tail hquote hunit hescape hcontrol ih =>
    simp only [Option.bind_eq_bind, Option.bind_eq_some_iff] at hread
    obtain ⟨⟨others, after⟩, htail, heq⟩ := hread
    obtain ⟨rfl, rfl⟩ := Prod.mk.inj (Option.some.inj heq)
    obtain ⟨piece, rfl, hpiece⟩ := ih htail
    have hbackslash : c ≠ '\\' := by
      intro hc
      cases htext : piece ++ after with
      | nil =>
        rw [htext] at htail
        cases htail
      | cons letter others => exact hescape letter others hc htext
    refine ⟨c :: piece, rfl, fun other => ?_⟩
    rw [List.cons_append, readPoints.eq_5 _ _ hquote (fun _ _ _ _ _ hc _ => hbackslash hc)
      (fun _ _ hc _ => hbackslash hc), if_neg hcontrol, hpiece other]
    rfl

namespace Token

variable {text rest : List Char}

/-- The digits that are taken from a text are a piece of it, and taken from this piece whatever
follows it, if this is no digit. -/
theorem piece_of_takeDigits {digits : List Char}
    (htake : Number.takeDigits text = (digits, rest)) :
    text = digits ++ rest ∧ (∀ c ∈ digits, c.isDigit = true) ∧
      ∀ other, Stops Char.isDigit other →
        Number.takeDigits (digits ++ other) = (digits, other) := by
  obtain ⟨htext, hdigits, _⟩ := span_eq_iff.mp (Prod.mk.inj htake)
  exact ⟨htext.symm, hdigits, fun other hother => takeDigits_append hdigits hother⟩

/-- The digits before the point of a number are a piece of the text. -/
theorem piece_of_takeWhole {whole : List Char} (hread : takeWhole text = some (whole, rest)) :
    text = whole ++ rest ∧ (∃ c tail, whole = c :: tail ∧ c.isDigit = true) ∧
      ∀ other, Stops Char.isDigit other → takeWhole (whole ++ other) = some (whole, other) := by
  unfold takeWhole at hread
  split at hread
  case h_1 tail =>
    obtain ⟨rfl, rfl⟩ := Prod.mk.inj (Option.some.inj hread)
    exact ⟨rfl, ⟨'0', [], rfl, rfl⟩, fun other _ => rfl⟩
  case h_2 hzero =>
    dsimp only at hread
    split at hread
    · cases hread
    · next hne =>
      have hdigits : Number.takeDigits text = (whole, rest) := Option.some.inj hread
      rw [hdigits] at hne
      obtain ⟨htext, hall, htake⟩ := piece_of_takeDigits hdigits
      obtain ⟨c, tail, rfl⟩ := List.exists_cons_of_ne_nil hne
      refine ⟨htext, ⟨c, tail, rfl, hall c List.mem_cons_self⟩, fun other hother => ?_⟩
      rw [takeWhole.eq_2, htake other hother]
      · exact if_neg (List.cons_ne_nil c tail)
      · intro after hafter
        refine hzero (tail ++ rest) ?_
        rw [htext, List.cons_append, (List.cons.inj hafter).1]

/-- The fraction of a number is read from a piece of the text, which may be empty. It does not begin
with a digit. -/
theorem exists_piece_of_takeFraction {fraction : List Char}
    (hread : takeFraction text = (fraction, rest)) :
    ∃ piece, text = piece ++ rest ∧ Stops Char.isDigit piece ∧
      ∀ other, Stops Char.isDigit other → Stops (· == '.') other →
        takeFraction (piece ++ other) = (fraction, other) := by
  have hnone : takeFraction text = ([], text) → ∃ piece, text = piece ++ rest ∧
      Stops Char.isDigit piece ∧ ∀ other, Stops Char.isDigit other → Stops (· == '.') other →
        takeFraction (piece ++ other) = (fraction, other) := by
    intro htext
    obtain ⟨rfl, rfl⟩ := Prod.mk.inj (htext.symm.trans hread)
    exact ⟨[], rfl, stops_nil _, fun other _ hpoint => takeFraction_of_stops hpoint⟩
  cases text with
  | nil => exact hnone rfl
  | cons c tail =>
    by_cases hpoint : c = '.'
    · subst hpoint
      by_cases hdigits : (Number.takeDigits tail).1 = []
      · refine hnone ?_
        rw [takeFraction]
        exact if_pos hdigits
      · rw [takeFraction] at hread
        dsimp only at hread
        rw [if_neg hdigits] at hread
        have hsplit : Number.takeDigits tail = (fraction, rest) := hread
        rw [hsplit] at hdigits
        obtain ⟨rfl, _, htake⟩ := piece_of_takeDigits hsplit
        refine ⟨'.' :: fraction, rfl, stops_cons rfl, fun other hother _ => ?_⟩
        rw [List.cons_append, takeFraction, htake other hother]
        exact if_neg hdigits
    · refine hnone (takeFraction_of_stops (stops_cons ?_))
      simpa using hpoint

/-- A sign is a piece of the text, which is empty if there is none. -/
theorem exists_piece_of_takeSign {negative : Bool}
    (hread : Number.takeSign text = (negative, rest)) :
    ∃ piece, text = piece ++ rest ∧ ∀ c other, c.isDigit = true →
      Number.takeSign (piece ++ c :: other) = (negative, c :: other) := by
  unfold Number.takeSign at hread
  split at hread <;> obtain ⟨rfl, rfl⟩ := Prod.mk.inj hread
  · exact ⟨['-'], rfl, fun _ _ _ => rfl⟩
  · exact ⟨['+'], rfl, fun _ _ _ => rfl⟩
  · exact ⟨[], rfl, fun _ other hc => takeSign_of_isDigit hc other⟩

/-- The exponent of a number is read from a piece of the text. It begins with its mark. -/
theorem exists_piece_of_takeExponent {exponent : Int}
    (hread : Number.takeExponent text = some (exponent, rest)) :
    ∃ mark tail, text = mark :: (tail ++ rest) ∧ (mark = 'e' ∨ mark = 'E') ∧
      ∀ other, Stops Char.isDigit other →
        Number.takeExponent (mark :: (tail ++ other)) = some (exponent, other) := by
  cases text with
  | nil => cases hread
  | cons mark text =>
    rw [Number.takeExponent] at hread
    split at hread
    case isFalse => cases hread
    case isTrue hmark =>
      rcases hsign : Number.takeSign text with ⟨negative, after⟩
      rcases hdigits : Number.takeDigits after with ⟨digits, tail⟩
      simp only [hsign, hdigits] at hread
      split at hread
      · cases hread
      · next hne =>
        obtain ⟨hexponent, rfl⟩ := Prod.mk.inj (Option.some.inj hread)
        obtain ⟨sign, rfl, htakeSign⟩ := exists_piece_of_takeSign hsign
        obtain ⟨rfl, hall, htake⟩ := piece_of_takeDigits hdigits
        obtain ⟨c, others, rfl⟩ := List.exists_cons_of_ne_nil hne
        refine ⟨mark, sign ++ c :: others, by simp, hmark, fun other hother => ?_⟩
        rw [List.append_assoc, Number.takeExponent, if_pos hmark, List.cons_append,
          htakeSign c _ (hall c List.mem_cons_self)]
        dsimp only
        rw [← List.cons_append, htake other hother]
        dsimp only
        rw [if_neg hne, hexponent]

/-- The end of a number is read from a piece of the text, which is empty if there is no exponent. -/
theorem exists_piece_of_endNumber {negative : Bool} {whole fraction : List Char} {value : Number}
    (hread : endNumber negative whole fraction text = (value, rest)) :
    ∃ piece, text = piece ++ rest ∧ Stops Char.isDigit piece ∧ Stops (· == '.') piece ∧
      ∀ other, Stops continuesNumber other →
        endNumber negative whole fraction (piece ++ other) = (value, other) := by
  unfold endNumber at hread
  split at hread
  · next exponent after hexponent =>
    obtain ⟨rfl, rfl⟩ := Prod.mk.inj hread
    obtain ⟨mark, tail, rfl, hmark, htake⟩ := exists_piece_of_takeExponent hexponent
    refine ⟨mark :: tail, rfl, stops_cons ?_, stops_cons ?_, fun other hother => ?_⟩
    · rcases hmark with rfl | rfl <;> rfl
    · rcases hmark with rfl | rfl <;> rfl
    · rw [endNumber, List.cons_append, htake other (stops_isDigit hother)]
  · next hexponent =>
    have hnumber : ∀ other, Stops continuesNumber other →
        endNumber negative whole fraction other = (value, other) := by
      intro other hother
      rw [endNumber, takeExponent_of_stops hother]
      dsimp only
      split at hread
      · next hinteger => rw [if_pos hinteger, (Prod.mk.inj hread).1]
      · next hdecimal => rw [if_neg hdecimal, (Prod.mk.inj hread).1]
    have hrest : text = rest := by
      split at hread <;> exact (Prod.mk.inj hread).2
    exact ⟨[], hrest, stops_nil _, stops_nil _, hnumber⟩

/-- A number behind its sign is read from a piece of the text, which begins with a digit. -/
theorem exists_piece_of_readUnsigned {negative : Bool} {value : Number}
    (hread : readUnsigned negative text = some (value, rest)) :
    ∃ c tail, text = c :: (tail ++ rest) ∧ c.isDigit = true ∧
      ∀ other, Stops continuesNumber other →
        readUnsigned negative (c :: (tail ++ other)) = some (value, other) := by
  obtain ⟨⟨whole, afterWhole⟩, hwhole, _⟩ := Option.bind_eq_some_iff.mp hread
  rcases hfraction : takeFraction afterWhole with ⟨fraction, tail⟩
  rw [readUnsigned_eq hwhole hfraction, Option.some.injEq] at hread
  obtain ⟨rfl, ⟨c, digits, rfl, hc⟩, htakeWhole⟩ := piece_of_takeWhole hwhole
  obtain ⟨point, rfl, hpoint, htakeFraction⟩ := exists_piece_of_takeFraction hfraction
  obtain ⟨piece, rfl, hdigit, hdot, hend⟩ := exists_piece_of_endNumber hread
  refine ⟨c, digits ++ (point ++ piece), by simp, hc, fun other hother => ?_⟩
  have hdigit' := hdigit.append (stops_isDigit hother)
  have hdot' := hdot.append (stops_point hother)
  have htext : c :: (digits ++ (point ++ piece) ++ other) =
      c :: digits ++ (point ++ (piece ++ other)) := by
    simp
  rw [htext, readUnsigned_eq (htakeWhole _ (hpoint.append hdigit'))
    (htakeFraction _ hdigit' hdot'), hend other hother]

/-- A number is read from a piece of the text, which begins with a digit or a minus. -/
theorem exists_piece_of_readNumber {value : Number}
    (hread : readNumber text = some (value, rest)) :
    ∃ c tail, text = c :: (tail ++ rest) ∧ (c.isDigit = true ∨ c = '-') ∧
      ∀ other, Stops continuesNumber other →
        readNumber (c :: (tail ++ other)) = some (value, other) := by
  unfold readNumber at hread
  split at hread
  · obtain ⟨c, tail, rfl, _, hpiece⟩ := exists_piece_of_readUnsigned hread
    exact ⟨'-', c :: tail, rfl, .inr rfl, fun other hother => hpiece other hother⟩
  · obtain ⟨c, tail, rfl, hc, hpiece⟩ := exists_piece_of_readUnsigned hread
    refine ⟨c, tail, rfl, .inl hc, fun other hother => ?_⟩
    rw [readNumber_of_isDigit hc, hpiece other hother]

/-- Whether a token is a number. -/
def isNumber : Token → Bool
  | number _ => true
  | _ => false

/-- A token is read from a piece of the text. It is read from this piece whatever follows it, unless
it is a number that goes on there. -/
theorem exists_piece_of_read {token : Token} (hread : read text = some (token, rest)) :
    ∃ piece, text = piece ++ rest ∧
      ∀ other, (token.isNumber = true → Stops continuesNumber other) →
        read (piece ++ other) = some (token, other) := by
  unfold read at hread
  split at hread
  case h_10 tail =>
    simp only [Option.bind_eq_bind, Option.bind_eq_some_iff] at hread
    obtain ⟨⟨points, after⟩, hpoints, heq⟩ := hread
    obtain ⟨rfl, rfl⟩ := Prod.mk.inj (Option.some.inj heq)
    obtain ⟨piece, rfl, hpiece⟩ := StringLiteral.exists_piece_of_readPoints hpoints
    refine ⟨'"' :: piece, rfl, fun other _ => ?_⟩
    rw [List.cons_append, read, hpiece other]
    rfl
  case h_11 =>
    rw [Option.map_eq_some_iff] at hread
    obtain ⟨⟨value, after⟩, hnumber, heq⟩ := hread
    obtain ⟨rfl, rfl⟩ := Prod.mk.inj heq
    obtain ⟨c, tail, rfl, hc, hpiece⟩ := exists_piece_of_readNumber hnumber
    refine ⟨c :: tail, rfl, fun other hother => ?_⟩
    rw [List.cons_append, read_of_isDigit hc, hpiece other (hother rfl)]
    rfl
  all_goals
    obtain ⟨rfl, rfl⟩ := Prod.mk.inj (Option.some.inj hread)
  case h_1 tail => exact ⟨['\x7b'], rfl, fun _ _ => rfl⟩
  case h_2 tail => exact ⟨['\x7d'], rfl, fun _ _ => rfl⟩
  case h_3 tail => exact ⟨['['], rfl, fun _ _ => rfl⟩
  case h_4 tail => exact ⟨[']'], rfl, fun _ _ => rfl⟩
  case h_5 tail => exact ⟨[':'], rfl, fun _ _ => rfl⟩
  case h_6 tail => exact ⟨[','], rfl, fun _ _ => rfl⟩
  case h_7 tail => exact ⟨['n', 'u', 'l', 'l'], rfl, fun _ _ => rfl⟩
  case h_8 tail => exact ⟨['t', 'r', 'u', 'e'], rfl, fun _ _ => rfl⟩
  case h_9 tail => exact ⟨['f', 'a', 'l', 's', 'e'], rfl, fun _ _ => rfl⟩

/-- No token begins with a gap. -/
theorem isGap_of_read {c : Char} {token : Token} (hread : read (c :: text) = some (token, rest)) :
    isGap c = false := by
  rw [← Bool.not_eq_true]
  intro hgap
  simp only [isGap, Bool.or_eq_true, beq_iff_eq] at hgap
  rcases hgap with ((rfl | rfl) | rfl) | rfl <;> cases hread

/-- Only a number begins with a character with which a number may go on. -/
theorem continuesNumber_of_read {c : Char} {token : Token}
    (hread : read (c :: text) = some (token, rest)) (htoken : token.isNumber = false) :
    continuesNumber c = false := by
  rw [← Bool.not_eq_true]
  intro hcontinues
  simp only [continuesNumber, Bool.or_eq_true, beq_iff_eq] at hcontinues
  rcases hcontinues with ((hdigit | rfl) | rfl) | rfl
  · rw [read_of_isDigit (.inl hdigit), Option.map_eq_some_iff] at hread
    obtain ⟨_, _, heq⟩ := hread
    rw [← (Prod.mk.inj heq).1] at htoken
    cases htoken
  all_goals cases hread

/-! ## Texts of tokens -/

/-- A text is a sequence of tokens, if gaps are left out. -/
inductive Spells : List Char → List Token → Prop
  | nil : Spells [] []
  | gap {c : Char} {text : List Char} {tokens : List Token} :
    isGap c = true → Spells text tokens → Spells (c :: text) tokens
  | token {text rest : List Char} {token : Token} {tokens : List Token} :
    read text = some (token, rest) → Spells rest tokens → Spells text (token :: tokens)

/-- The tokens that are scanned from a text are those that it spells. -/
theorem scan_eq_some_iff {tokens : List Token} : scan text = some tokens ↔ Spells text tokens := by
  constructor
  · intro hscan
    induction hlength : text.length using Nat.strongRecOn generalizing text tokens with
    | ind length ih =>
      subst hlength
      cases text with
      | nil =>
        rw [scan_nil] at hscan
        cases hscan
        exact .nil
      | cons c text =>
        rw [scan_cons] at hscan
        split at hscan
        · next hgap => exact .gap hgap (ih _ (Nat.lt_succ_self _) hscan rfl)
        · obtain ⟨⟨token, rest⟩, hread, hrest⟩ := Option.bind_eq_some_iff.mp hscan
          obtain ⟨tokens, htokens, rfl⟩ := Option.map_eq_some_iff.mp hrest
          exact .token hread (ih _ (length_read_lt hread) htokens rfl)
  · intro hspells
    induction hspells with
    | nil => exact scan_nil
    | gap hgap _ ih => rw [scan_cons, if_pos hgap, ih]
    | @token text rest token tokens hread _ ih =>
      cases text with
      | nil => cases hread
      | cons c text => rw [scan_of_read (isGap_of_read hread) hread, ih, Option.map_some]

/-- Two tokens of which not both are numbers. Only two numbers need a gap between them. -/
def Parted (first second : Token) : Prop :=
  first.isNumber = true → second.isNumber = false

variable {tokens others : List Token}

/-- A gap before a text does not change its tokens. -/
theorem Spells.append_gap {gap : List Char} (hgap : ∀ c ∈ gap, isGap c = true)
    (htext : Spells text tokens) : Spells (gap ++ text) tokens := by
  induction gap with
  | nil => exact htext
  | cons c gap ih =>
    obtain ⟨hc, hgap⟩ := List.forall_mem_cons.mp hgap
    exact .gap hc (ih hgap)

/-- A text whose first token is no number does not go on with one. -/
theorem Spells.stops (htext : Spells text tokens)
    (hfirst : ∀ token ∈ tokens.head?, token.isNumber = false) : Stops continuesNumber text := by
  cases htext with
  | nil => exact stops_nil _
  | @gap c text _ hgap _ =>
    refine stops_cons ?_
    simp only [isGap, Bool.or_eq_true, beq_iff_eq] at hgap
    rcases hgap with ((rfl | rfl) | rfl) | rfl <;> rfl
  | @token _ _ token tokens hread _ =>
    cases text with
    | nil => exact stops_nil _
    | cons c text => exact stops_cons (continuesNumber_of_read hread (hfirst token rfl))

/-- One text behind another spells the tokens of both, if no two numbers come together. -/
theorem Spells.append {next : List Char} (htext : Spells text tokens) (hnext : Spells next others)
    (hparted : (tokens ++ others).IsChain Parted) : Spells (text ++ next) (tokens ++ others) := by
  induction htext with
  | nil => exact hnext
  | gap hgap _ ih => exact .gap hgap (ih hparted)
  | token hread _ ih =>
    rw [List.cons_append, List.isChain_cons] at hparted
    obtain ⟨hfirst, hrest⟩ := hparted
    obtain ⟨piece, rfl, hpiece⟩ := exists_piece_of_read hread
    have hspells := ih hrest
    rw [List.append_assoc]
    exact .token (hpiece _ fun hnumber => hspells.stops fun token htoken =>
      hfirst token htoken hnumber) hspells

/-- Behind a token that is no number any token may stand. -/
theorem isChain_cons_of_isNumber {token : Token} (htoken : token.isNumber = false)
    (htokens : tokens.IsChain Parted) : (token :: tokens).IsChain Parted := by
  refine List.isChain_cons.mpr ⟨fun next _ hnumber => ?_, htokens⟩
  rw [htoken] at hnumber
  cases hnumber

/-- Numbers on both sides of another token do not come together. -/
theorem isChain_append_cons {token : Token} (htoken : token.isNumber = false)
    (hbefore : tokens.IsChain Parted) (hbehind : others.IsChain Parted) :
    (tokens ++ token :: others).IsChain Parted := by
  refine List.isChain_append.mpr ⟨hbefore, isChain_cons_of_isNumber htoken hbehind, ?_⟩
  intro last _ first hfirst _
  obtain rfl := Option.some.inj hfirst
  exact htoken

/-- Numbers in pieces with commas between them do not come together, if they do not in the pieces.
-/
theorem isChain_intercalate {pieces : List (List Token)}
    (hpieces : ∀ piece ∈ pieces, piece.IsChain Parted) :
    ([comma].intercalate pieces).IsChain Parted := by
  induction pieces with
  | nil => exact List.isChain_nil
  | cons piece pieces ih =>
    obtain ⟨hpiece, hrest⟩ := List.forall_mem_cons.mp hpieces
    cases pieces with
    | nil => simpa using hpiece
    | cons next pieces =>
      rw [List.intercalate_cons_cons, List.append_assoc]
      exact isChain_append_cons rfl hpiece (ih hrest)

/-- No two numbers of a document come together. -/
theorem isChain_tokens (document : Document) : document.tokens.IsChain Parted := by
  induction document using Json.induction with
  | null | bool | number | string => exact List.isChain_singleton _
  | array items ih =>
    rw [Json.tokens, Json.tokensOfItems_eq_map]
    have hitems := isChain_intercalate (List.forall_mem_map.mpr ih)
    exact isChain_cons_of_isNumber rfl (isChain_append_cons rfl hitems List.isChain_nil)
  | object members ih =>
    have hmember : ∀ member ∈ members, (Json.memberTokens member).IsChain Parted :=
      fun member hmember => isChain_cons_of_isNumber rfl
        (isChain_cons_of_isNumber rfl (ih member hmember))
    rw [Json.tokens, Json.tokensOfMembers_eq_map]
    have hmembers := isChain_intercalate (List.forall_mem_map.mpr hmember)
    exact isChain_cons_of_isNumber rfl (isChain_append_cons rfl hmembers List.isChain_nil)

/-- Two texts that differ in the gap at one place, before, between or behind the tokens. -/
inductive Respaces : List Char → List Char → Prop
  | gap {before behind gap other : List Char} {tokens others : List Token} :
    scan before = some tokens → scan behind = some others →
    scan (before ++ (gap ++ behind)) = some (tokens ++ others) →
    (∀ c ∈ gap, isGap c = true) → (∀ c ∈ other, isGap c = true) →
    Respaces (before ++ (gap ++ behind)) (before ++ (other ++ behind))

end Token

/-- A text with another gap between two tokens is that of the same document. -/
theorem Document.ofText?_of_respaces {text other : String} {document : Document}
    (hrespaces : Token.Respaces text.toList other.toList)
    (hread : ofText? text = some document) : ofText? other = some document := by
  rw [ofText?_eq_some_iff] at hread ⊢
  generalize text.toList = source at *
  generalize other.toList = target at *
  cases hrespaces with
  | gap hbefore hbehind hwhole _ hgap =>
    have htokens := Option.some.inj (hwhole.symm.trans hread)
    have hparted := Token.isChain_tokens document
    rw [← htokens] at hparted ⊢
    exact Token.scan_eq_some_iff.mpr ((Token.scan_eq_some_iff.mp hbefore).append
      ((Token.scan_eq_some_iff.mp hbehind).append_gap hgap) hparted)

end RecordQuery
