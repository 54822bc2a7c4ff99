/-
TwoEnded.Text.Range — character classes as ranges of code points.

A class is given by the ranges of its code points (`Ranges`), both ends of each
included. A character belongs to the class if one of the ranges covers it.
-/

namespace TwoEnded.Text

/-- Ranges of code points, both ends included. -/
abbrev Ranges := List (Nat × Nat)

namespace Ranges

/-- Whether a character lies in one of the ranges. -/
def covers (ranges : Ranges) (c : Char) : Bool :=
  ranges.any fun (first, last) => first ≤ c.toNat && c.toNat ≤ last

end Ranges

end TwoEnded.Text
