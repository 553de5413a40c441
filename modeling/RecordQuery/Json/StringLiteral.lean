/-!
# String literals

The escapes of JSON strings, in both directions. Reading yields code points first, because an escape
may spell one half of a surrogate pair; `joinSurrogates` then puts the halves together.
-/

namespace RecordQuery.StringLiteral

/-- A character as it stands in a string literal: quotes, backslashes and control characters are
escaped, all else stands for itself. -/
def escapeChar (c : Char) : List Char :=
  if c = '"' then ['\\', '"']
  else if c = '\\' then ['\\', '\\']
  else if c = '\x08' then ['\\', 'b']
  else if c = '\x0c' then ['\\', 'f']
  else if c = '\n' then ['\\', 'n']
  else if c = '\r' then ['\\', 'r']
  else if c = '\t' then ['\\', 't']
  else if c.toNat < 0x20 then
    ['\\', 'u', '0', '0', Nat.digitChar (c.toNat / 16), Nat.digitChar (c.toNat % 16)]
  else [c]

/-- The string literal of a text, with its quotes. -/
def write (text : String) : String :=
  "\"" ++ String.ofList (text.toList.flatMap escapeChar) ++ "\""

/-- The value of a hexadecimal digit of either case. -/
def hexDigit? (c : Char) : Option Nat :=
  if '0' ≤ c ∧ c ≤ '9' then some (c.toNat - '0'.toNat)
  else if 'a' ≤ c ∧ c ≤ 'f' then some (c.toNat - 'a'.toNat + 10)
  else if 'A' ≤ c ∧ c ≤ 'F' then some (c.toNat - 'A'.toNat + 10)
  else none

/-- The 16-bit unit that four hexadecimal digits spell. -/
def unit? (a b c d : Char) : Option Nat := do
  let a ← hexDigit? a
  let b ← hexDigit? b
  let c ← hexDigit? c
  let d ← hexDigit? d
  some (((16 * a + b) * 16 + c) * 16 + d)

/-- The code point that a letter behind a backslash stands for. -/
def shortEscape? : Char → Option Nat
  | '"' => some '"'.toNat
  | '\\' => some '\\'.toNat
  | '/' => some '/'.toNat
  | 'b' => some 0x08
  | 'f' => some 0x0C
  | 'n' => some 0x0A
  | 'r' => some 0x0D
  | 't' => some 0x09
  | _ => none

/-- The code points of a literal up to its closing quote, and what follows that quote. A control
character must not stand for itself. -/
def readPoints : List Char → Option (List Nat × List Char)
  | [] => none
  | '"' :: rest => some ([], rest)
  | '\\' :: 'u' :: a :: b :: c :: d :: rest => do
    let point ← unit? a b c d
    let (points, rest) ← readPoints rest
    some (point :: points, rest)
  | '\\' :: letter :: rest => do
    let point ← shortEscape? letter
    let (points, rest) ← readPoints rest
    some (point :: points, rest)
  | c :: rest =>
    if c.toNat < 0x20 then none
    else do
      let (points, rest) ← readPoints rest
      some (c.toNat :: points, rest)

/-- Whether a unit opens a surrogate pair. -/
def isLeading (point : Nat) : Bool :=
  0xD800 ≤ point && point < 0xDC00

/-- Whether a unit closes a surrogate pair. -/
def isTrailing (point : Nat) : Bool :=
  0xDC00 ≤ point && point < 0xE000

/-- The code point of a surrogate pair. -/
def pairPoint (leading trailing : Nat) : Nat :=
  (leading - 0xD800) * 0x400 + (trailing - 0xDC00) + 0x10000

/-- The text of a sequence of code points, with surrogate pairs put together. There is none if a
surrogate stands alone. -/
def joinSurrogates : List Nat → Option (List Char)
  | [] => some []
  | [point] =>
    if isLeading point || isTrailing point then none else some [Char.ofNat point]
  | point :: next :: rest =>
    if isLeading point then
      if isTrailing next then
        (joinSurrogates rest).map (Char.ofNat (pairPoint point next) :: ·)
      else none
    else if isTrailing point then none
    else (joinSurrogates (next :: rest)).map (Char.ofNat point :: ·)

end RecordQuery.StringLiteral
