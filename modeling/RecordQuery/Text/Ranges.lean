/-!
# Sets of code points

A property of characters is given as a list of closed ranges of code points.
-/

namespace RecordQuery.Text

/-- Whether a code point lies in one of the closed ranges. -/
def inRanges (ranges : List (Nat × Nat)) (point : Nat) : Bool :=
  ranges.any fun (low, high) => low ≤ point && point ≤ high

end RecordQuery.Text
