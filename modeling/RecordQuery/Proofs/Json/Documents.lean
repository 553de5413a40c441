import RecordQuery.Json.Document
import RecordQuery.Proofs.Json.Tokens

/-!
# Documents and their tokens

A sequence of tokens forms a document exactly if it is that of the document, so no two documents
have the same tokens. The text of a value is read as the document of this value, in which every
string is a text.
-/

namespace RecordQuery

namespace Document

variable {frames : List Frame} {tokens : List Token}

/-- No value begins with the end of an array. -/
theorem tokens_ne_closeArray (value : Document) (others rest : List Token) :
    value.tokens ++ others ≠ .closeArray :: rest := by
  cases value <;> simp [Json.tokens]

/-- Pieces with separators between them are the first one, and every other one behind a separator.
-/
theorem intercalate_cons_eq_flatMap {α : Type} (separator first : List α) (pieces : List (List α)) :
    separator.intercalate (first :: pieces) = first ++ pieces.flatMap (separator ++ ·) := by
  induction pieces generalizing first with
  | nil => simp
  | cons next pieces ih =>
    rw [List.intercalate_cons_cons, ih, List.flatMap_cons, List.append_assoc, List.append_assoc]

/-- The items of an array are read up to its end, behind those that have been read. -/
theorem readValue_items {items : List Document} {first : Document} {done : List Document}
    (hitems : ∀ item ∈ first :: items, ∀ frames tokens,
      readValue frames (item.tokens ++ tokens) = readAfter frames item tokens) :
    readValue (.array done :: frames) (first.tokens ++
        (items.flatMap (fun item => .comma :: item.tokens) ++ .closeArray :: tokens)) =
      readAfter frames (.array (done.reverse ++ first :: items)) tokens := by
  obtain ⟨hfirst, hothers⟩ := List.forall_mem_cons.mp hitems
  rw [hfirst]
  induction items generalizing first done with
  | nil =>
    rw [List.flatMap_nil, List.nil_append, readAfter, List.reverse_cons]
  | cons next items ih =>
    rw [List.flatMap_cons, List.cons_append, List.cons_append, List.append_assoc, readAfter]
    obtain ⟨hnext, hrest⟩ := List.forall_mem_cons.mp hothers
    rw [hnext, ih hothers hnext hrest]
    simp

/-- The members of an object are read up to its end, behind those that have been read. -/
theorem readValue_members {members : List (Option String × Document)}
    {first : Option String × Document} {done : List (Option String × Document)}
    (hmembers : ∀ member ∈ first :: members, ∀ frames tokens,
      readValue frames (member.2.tokens ++ tokens) = readAfter frames member.2 tokens) :
    readValue (.object done first.1 :: frames) (first.2.tokens ++
        (members.flatMap (fun member => .comma :: Json.memberTokens member) ++
          .closeObject :: tokens)) =
      readAfter frames (.object (done.reverse ++ first :: members)) tokens := by
  obtain ⟨hfirst, hothers⟩ := List.forall_mem_cons.mp hmembers
  rw [hfirst]
  induction members generalizing first done with
  | nil =>
    rw [List.flatMap_nil, List.nil_append, readAfter, List.reverse_cons]
  | cons next members ih =>
    rw [List.flatMap_cons, Json.memberTokens]
    simp only [List.cons_append, List.append_assoc]
    rw [readAfter]
    obtain ⟨hnext, hrest⟩ := List.forall_mem_cons.mp hothers
    rw [hnext, ih hothers hnext hrest]
    simp

/-- A value is read from its tokens. -/
theorem readValue_tokens (value : Document) (frames : List Frame) (tokens : List Token) :
    readValue frames (value.tokens ++ tokens) = readAfter frames value tokens := by
  induction value using Json.induction generalizing frames tokens with
  | null => rw [Json.tokens, List.singleton_append, readValue]
  | bool value => rw [Json.tokens, List.singleton_append, readValue]
  | number value => rw [Json.tokens, List.singleton_append, readValue]
  | string value => rw [Json.tokens, List.singleton_append, readValue]
  | array items ih =>
    rw [Json.tokens, Json.tokensOfItems_eq_map]
    cases items with
    | nil =>
      rw [List.map_nil, List.intercalate_nil, List.nil_append, List.cons_append,
        List.singleton_append, readValue]
    | cons first items =>
      rw [List.map_cons, intercalate_cons_eq_flatMap, List.flatMap_map, List.cons_append,
        List.append_assoc, List.append_assoc, readValue.eq_6 _ _ fun rest =>
          tokens_ne_closeArray first _ rest]
      exact readValue_items ih
  | object members ih =>
    rw [Json.tokens, Json.tokensOfMembers_eq_map]
    cases members with
    | nil =>
      rw [List.map_nil, List.intercalate_nil, List.nil_append, List.cons_append,
        List.singleton_append, readValue]
    | cons first members =>
      rw [List.map_cons, intercalate_cons_eq_flatMap, List.flatMap_map, List.cons_append,
        List.append_assoc, List.append_assoc, Json.memberTokens, List.cons_append,
        List.cons_append, readValue]
      exact readValue_members ih

/-- A document is read from its tokens. -/
theorem ofTokens?_tokens (document : Document) : ofTokens? document.tokens = some document := by
  have hread := readValue_tokens document [] []
  rwa [List.append_nil, readAfter] at hread

/-- The tokens that have been read when a value is due in containers that are open. -/
def openTokens : List Frame → List Token
  | [] => []
  | .array items :: frames =>
    openTokens frames ++ .openArray :: items.reverse.flatMap (·.tokens ++ [.comma])
  | .object members name :: frames =>
    openTokens frames ++ .openObject ::
      (members.reverse.flatMap (Json.memberTokens · ++ [.comma]) ++ [.string name, .colon])

/-- Pieces with separators between them are every piece but the last with a separator behind it, and
the last one. -/
theorem intercalate_append_singleton {α : Type} (separator last : List α)
    (pieces : List (List α)) :
    separator.intercalate (pieces ++ [last]) = pieces.flatMap (· ++ separator) ++ last := by
  induction pieces with
  | nil => simp
  | cons piece pieces ih =>
    rw [List.cons_append, List.intercalate_cons_of_ne_nil (by simp), ih, List.flatMap_cons]
    simp only [List.append_assoc]

/-- Whatever is read has the tokens from which it is read: those of the open containers and those
that follow, at a point behind a value with the value between them. -/
theorem tokens_of_read :
    (∀ frames tokens, ∀ document, readValue frames tokens = some document →
      document.tokens = openTokens frames ++ tokens) ∧
    ∀ frames (value : Document) tokens, ∀ document, readAfter frames value tokens = some document →
      document.tokens = openTokens frames ++ (value.tokens ++ tokens) := by
  refine readValue.mutual_induct
    (fun frames tokens => ∀ document, readValue frames tokens = some document →
      document.tokens = openTokens frames ++ tokens)
    (fun frames value tokens => ∀ document, readAfter frames value tokens = some document →
      document.tokens = openTokens frames ++ (value.tokens ++ tokens))
    ?null ?bool ?number ?string ?emptyArray ?array ?emptyObject ?object ?noValue
    ?done ?nextItem ?closeArray ?nextMember ?closeObject ?noEnd
  case null | bool | number | string | emptyArray | emptyObject =>
    intros
    rename_i ih document hread
    rw [readValue] at hread
    rw [ih document hread]
    rfl
  case array =>
    intro frames tokens hopen ih document hread
    rw [readValue.eq_6 _ _ hopen] at hread
    rw [ih document hread]
    simp [openTokens]
  case object =>
    intro frames name tokens ih document hread
    rw [readValue] at hread
    rw [ih document hread]
    simp [openTokens]
  case noValue =>
    intro tokens frames hnull hbool hnumber hstring hemptyArray harray hemptyObject hobject document
      hread
    rw [readValue.eq_9 _ _ hnull hbool hnumber hstring hemptyArray harray hemptyObject hobject]
      at hread
    cases hread
  case done =>
    intro value document hread
    rw [readAfter, Option.some.injEq] at hread
    rw [hread, List.append_nil, openTokens, List.nil_append]
  case nextItem =>
    intro items frames value tokens ih document hread
    rw [readAfter] at hread
    rw [ih document hread]
    simp [openTokens]
  case closeArray =>
    intro items frames value tokens ih document hread
    rw [readAfter] at hread
    rw [ih document hread]
    simp [openTokens, Json.tokens, intercalate_append_singleton, List.flatMap_map,
      -List.map_reverse]
  case nextMember =>
    intro members name frames value next tokens ih document hread
    rw [readAfter] at hread
    rw [ih document hread]
    simp [openTokens, Json.memberTokens]
  case closeObject =>
    intro members name frames value tokens ih document hread
    rw [readAfter] at hread
    rw [ih document hread]
    simp [openTokens, Json.tokens, Json.memberTokens, intercalate_append_singleton,
      List.flatMap_map, -List.map_reverse]
  case noEnd =>
    intro tokens frames value hdone hitem hcloseArray hmember hcloseObject document hread
    rw [readAfter.eq_6 _ _ _ hdone hitem hcloseArray hmember hcloseObject] at hread
    cases hread

/-- A sequence of tokens forms a document exactly if it is that of the document. -/
theorem ofTokens?_eq_some_iff {tokens : List Token} {document : Document} :
    ofTokens? tokens = some document ↔ tokens = document.tokens := by
  constructor
  · intro hread
    have htokens := tokens_of_read.1 [] tokens document hread
    rw [htokens, openTokens, List.nil_append]
  · rintro rfl
    exact ofTokens?_tokens document

/-- A text is that of a document exactly if its tokens are those of the document. -/
theorem ofText?_eq_some_iff {text : String} {document : Document} :
    ofText? text = some document ↔ Token.scan text.toList = some document.tokens := by
  rw [ofText?, Option.bind_eq_some_iff]
  simp only [ofTokens?_eq_some_iff, exists_eq_right]

/-- The text of a value is read as the document of the value. -/
theorem ofText?_write (value : Record) : ofText? value.write = some (ofRecord value) := by
  have hscan := Token.scan_write value (Text.stops_nil _)
  rw [List.append_nil, Token.scan_nil, Option.map_some, List.append_nil] at hscan
  exact ofText?_eq_some_iff.mpr hscan

end Document

end RecordQuery
