import RecordQuery.Json.Form
import RecordQuery.Limits.Basic

/-!
# Texts of limits

Limits are stored as JSON. What a text leaves out has its usual value.
-/

namespace RecordQuery.Limits

/-- The fields of limits. -/
def form : Form :=
  [["max_depth"], ["max_nodes"], ["max_sort_keys"], ["strict_field_paths"]]

/-- The limits that a document gives, whether they are positive or not. -/
def ofDocument? (document : Document) : Option Limits := do
  let [depth, nodes, keys, paths] ← form.fields document | none
  let usual : Limits := {}
  some {
    maxDepth := ← Form.natural usual.maxDepth depth
    maxNodes := ← Form.natural usual.maxNodes nodes
    maxKeys := ← Form.natural usual.maxKeys keys
    strictPaths := ← Form.flag usual.strictPaths paths }

/-- Reads limits, and checks that they are positive. -/
def ofText (text : String) : Except Fault Limits :=
  match (Document.ofText? text).bind ofDocument? with
  | none => .error (.configuration "Failed to parse config: not a set of limits")
  | some limits => do
    limits.check
    pure limits

/-- Reads limits from the content of a file, which is `none` if the file could not be opened. -/
def ofFile (name : String) (content : Option ByteArray) : Except Fault Limits :=
  match content.bind String.fromUTF8? with
  | none => .error (.configuration ("Failed to read config " ++ name ++ ": not a readable text"))
  | some text => ofText text

/-- Limits as a value. -/
def toRecord (limits : Limits) : Record :=
  .object [("max_depth", .number (.integer limits.maxDepth)),
    ("max_nodes", .number (.integer limits.maxNodes)),
    ("max_sort_keys", .number (.integer limits.maxKeys)),
    ("strict_field_paths", .bool limits.strictPaths)]

/-- The text of limits. -/
def toText (limits : Limits) : String :=
  limits.toRecord.write

end RecordQuery.Limits
