/-! Sets of characters given by ascending ranges of code points. -/
namespace WikiDirectives

/-- Closed ranges of code points, in ascending order and apart from each other. -/
abbrev CharRanges := List (Nat × Nat)

/-- Whether a code point lies in one of the ranges. The search ends at the first range above it. -/
def CharRanges.covers : CharRanges → Nat → Bool
  | [], _ => false
  | (low, high) :: rest, n => if n < low then false else if n ≤ high then true else covers rest n

end WikiDirectives
