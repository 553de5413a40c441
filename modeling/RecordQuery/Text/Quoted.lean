import RecordQuery.Text.Extending
import RecordQuery.Text.Invisible
import RecordQuery.Text.Ranges

/-!
# Quotations

A quoted text stands between double quotes and shows every character unmistakably: quotes and
backslashes behind a backslash, and characters that cannot be seen on their own by their code point.
-/

namespace RecordQuery.Text

/-- Characters that a quotation shows by their code point. -/
def isSpelledOut (c : Char) : Bool :=
  inRanges invisible c.toNat || inRanges extending c.toNat

/-- A character as it stands between quotes. -/
def quoteChar (c : Char) : List Char :=
  if c = '"' then ['\\', '"']
  else if c = '\\' then ['\\', '\\']
  else if c = '\n' then ['\\', 'n']
  else if c = '\r' then ['\\', 'r']
  else if c = '\t' then ['\\', 't']
  else if c.toNat = 0 then ['\\', '0']
  else if isSpelledOut c then
    ['\\', 'u', '\x7b'] ++ Nat.toDigits 16 c.toNat ++ ['\x7d']
  else [c]

/-- A text between double quotes. -/
def quote (text : String) : String :=
  "\"" ++ String.ofList (text.toList.flatMap quoteChar) ++ "\""

end RecordQuery.Text
