/-!
# Sets of characters as ranges of code points
-/

namespace Crosswalk.Text

/-- Whether the code point lies in one of the ranges, which stand in ascending order with both
ends included. -/
def inRanges : List (Nat × Nat) → Nat → Bool
  | [], _ => false
  | (first, last) :: more, n => first ≤ n && (n ≤ last || inRanges more n)

end Crosswalk.Text
