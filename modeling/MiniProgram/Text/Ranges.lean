/-
Sets of characters as lists of ranges of code points.
-/

namespace MiniProgram.Text

/-- Ranges of code points with their first and last ones, in order. -/
abbrev Ranges := List (Nat × Nat)

/-- Whether a code point is in one of the ranges. The search ends at the first range that starts
after it. -/
def Ranges.holds (n : Nat) : Ranges → Bool
  | [] => false
  | (first, last) :: rs => first ≤ n && (n ≤ last || holds n rs)

end MiniProgram.Text
