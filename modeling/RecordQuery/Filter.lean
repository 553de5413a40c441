/-!
# Filters

A filter as it is requested: a tree of nodes, of which each has a condition of its own, children
under a connective, or both. Operators and connectives are still tokens here; they are looked up when
the filter is compiled.
-/

namespace RecordQuery

/-- A node of a filter with all that is below it. -/
structure Filter where
  field : String := ""
  operator : String := ""
  value : Option String := none
  connective : Option String := none
  children : List Filter := []
  deriving Repr, BEq, Inhabited

namespace Filter

/-- A filter with a condition and no value yet. -/
def leaf (field operator : String) : Filter :=
  { field, operator }

/-- A filter that only groups others. -/
def group (connective : String) (children : List Filter) : Filter :=
  { connective := some connective, children }

/-- The filter with another value. -/
def withValue (filter : Filter) (value : String) : Filter :=
  { filter with value := some value }

/-- The filter with another connective. -/
def withConnective (filter : Filter) (connective : String) : Filter :=
  { filter with connective := some connective }

/-- The filter with one more child, behind the others. -/
def withChild (filter child : Filter) : Filter :=
  { filter with children := filter.children ++ [child] }

/-- The parameter of the node: its value, empty if it has none. -/
def parameter (filter : Filter) : String :=
  filter.value.getD ""

/-- Whether the node has a value to compare with. An empty value is none. -/
def hasValue (filter : Filter) : Bool :=
  filter.parameter != ""

/-- Whether the node only groups its children. -/
def isGrouping (filter : Filter) : Bool :=
  !filter.children.isEmpty && filter.field == "" && filter.operator == "" && !filter.hasValue

mutual

/-- The number of nodes. -/
def count : Filter → Nat
  | ⟨_, _, _, _, children⟩ => countAll children + 1

/-- The number of nodes of several filters together. -/
def countAll : List Filter → Nat
  | [] => 0
  | filter :: filters => count filter + countAll filters

end

mutual

/-- The number of nodes on the longest way down. -/
def depth : Filter → Nat
  | ⟨_, _, _, _, children⟩ => depthAll children + 1

/-- The largest depth among several filters, zero if there are none. -/
def depthAll : List Filter → Nat
  | [] => 0
  | filter :: filters => max (depth filter) (depthAll filters)

end

mutual

/-- The nodes in pre-order: a node stands before its children, and these in their order. -/
def flatten : Filter → List Filter
  | filter@⟨_, _, _, _, children⟩ => filter :: flattenAll children

/-- The nodes of several filters in pre-order, one filter after the other. -/
def flattenAll : List Filter → List Filter
  | [] => []
  | filter :: filters => flatten filter ++ flattenAll filters

end

/-- The parameters of a filter: every node has one, at its place in pre-order. -/
def parameters (filter : Filter) : List String :=
  filter.flatten.map parameter

end Filter

end RecordQuery
