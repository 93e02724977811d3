/-! # Sets of characters

A set of characters as the ranges of their numbers, in ascending order and without overlaps.
-/

namespace Activation.Text
set_option autoImplicit false

/-- The ranges of a set, each with its first and its last number. -/
abbrev Ranges := List (Nat × Nat)

/-- Whether a number lies in one of the ranges. As they ascend, the first one that does not end below
the number decides. -/
def Ranges.holds : Ranges → Nat → Bool
  | [], _ => false
  | (first, last) :: ranges, n => if last < n then Ranges.holds ranges n else first ≤ n

end Activation.Text
