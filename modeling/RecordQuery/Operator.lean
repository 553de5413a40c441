import RecordQuery.Fault

/-!
# Operators

The operators of conditions: the tokens by which requests name them, and how they are rendered.
-/

namespace RecordQuery

/-- An operator of a condition. -/
inductive Operator where
  | equal
  | unequal
  | less
  | atMost
  | greater
  | atLeast
  | isNull
  | isNotNull
  | startsWith
  | endsWith
  | contains
  | lacks
  deriving Repr, DecidableEq, Inhabited

/-- The kinds of conditions that operators form. -/
inductive OperatorKind where
  /-- The value of a field is compared with a parameter: `age >= @0`. -/
  | comparison
  /-- A field is tested for null, without a parameter: `age == null`. -/
  | nullTest
  /-- A method of a text is called with a parameter: `(name.Contains(@0))`. -/
  | method
  deriving Repr, DecidableEq

namespace Operator

/-- All operators. -/
def all : List Operator :=
  [equal, unequal, less, atMost, greater, atLeast, isNull, isNotNull, startsWith, endsWith,
    contains, lacks]

/-- The token of an operator in requests. -/
def token : Operator → String
  | equal => "eq"
  | unequal => "neq"
  | less => "lt"
  | atMost => "lte"
  | greater => "gt"
  | atLeast => "gte"
  | isNull => "isnull"
  | isNotNull => "isnotnull"
  | startsWith => "startswith"
  | endsWith => "endswith"
  | contains => "contains"
  | lacks => "doesnotcontain"

/-- The operator with a given token. Tokens are case-sensitive. -/
def ofToken (text : String) : Except Fault Operator :=
  match all.find? fun op => op.token == text with
  | some op => .ok op
  | none => .error (.operator text)

/-- The kind of conditions that an operator forms. -/
def kind : Operator → OperatorKind
  | equal | unequal | less | atMost | greater | atLeast => .comparison
  | isNull | isNotNull => .nullTest
  | startsWith | endsWith | contains | lacks => .method

/-- How an operator is rendered: its sign, or the name of its method. -/
def symbol : Operator → String
  | equal => "="
  | unequal => "!="
  | less => "<"
  | atMost => "<="
  | greater => ">"
  | atLeast => ">="
  | isNull => "== null"
  | isNotNull => "!= null"
  | startsWith => "StartsWith"
  | endsWith => "EndsWith"
  | contains | lacks => "Contains"

/-- Whether the method of an operator is rendered with a negation. -/
def isNegated : Operator → Bool
  | lacks => true
  | _ => false

end Operator

end RecordQuery
