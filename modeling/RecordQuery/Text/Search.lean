/-!
# Searching texts
-/

namespace RecordQuery.Text

/-- Whether a pattern occurs somewhere in a text. The empty pattern occurs in every text. -/
def occursIn (pattern : List Char) : List Char → Bool
  | [] => pattern.isEmpty
  | c :: rest => pattern.isPrefixOf (c :: rest) || occursIn pattern rest

end RecordQuery.Text
