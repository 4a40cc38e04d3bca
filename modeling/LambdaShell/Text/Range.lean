/-
Character classes as ranges of code points.

A class of Unicode characters is a list of closed ranges, ascending and apart.  Membership
is the one question asked of it.
-/
namespace LambdaShell.Text

/-- The code point of `c` lies in one of the ranges. -/
def inRanges (ranges : List (Nat × Nat)) (c : Char) : Bool :=
  ranges.any fun r => r.1 ≤ c.toNat && c.toNat ≤ r.2

end LambdaShell.Text
