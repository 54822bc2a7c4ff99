/-
TwoEnded.Side — the two ends of a deque.

Every instruction of the machine names the end it works on, or names none
and then fails if it needs one. `Side.opposite` exchanges the ends; it is
its own inverse.
-/

namespace TwoEnded

/-- One end of a deque. -/
inductive Side where
  | left
  | right
  deriving DecidableEq, Repr

/-- The other end. -/
def Side.opposite : Side → Side
  | .left => .right
  | .right => .left

@[simp] theorem Side.opposite_opposite (s : Side) : s.opposite.opposite = s := by
  cases s <;> rfl

end TwoEnded
