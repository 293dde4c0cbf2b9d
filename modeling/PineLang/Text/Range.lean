/-!
# Sets of code points as ranges

A class of characters is given by the closed ranges of code points it consists of.
-/
namespace PineLang.Text

/-- Closed ranges of code points, in increasing order. -/
abbrev Ranges := Array (Nat × Nat)

/-- `n` lies in one of the ranges. -/
def Ranges.contains (rs : Ranges) (n : Nat) : Bool :=
  rs.any fun r => r.1 ≤ n && n ≤ r.2

end PineLang.Text
