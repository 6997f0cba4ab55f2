/-!
# Random numbers

A generator of random numbers gives one number after the other, each of them a multiple of `2 ^ -53`
from 0 up to 1. Which numbers these are is not up to an evaluation: it takes the numbers that are
still to come, and passes on those that it has not drawn.
-/

namespace Reckoner

/-- The random numbers that are still to come, in units of `2 ^ -53`. -/
abbrev Draws := Nat → BitVec 53

namespace Draws

/-- The number at a place. -/
def number (draws : Draws) (place : Nat) : Float :=
  Float.ofNat (draws place).toNat / 9007199254740992.0

/-- The numbers behind the first ones. -/
def drop (count : Nat) (draws : Draws) : Draws :=
  fun place => draws (place + count)

theorem drop_zero (draws : Draws) : draws.drop 0 = draws :=
  rfl

theorem drop_drop (m n : Nat) (draws : Draws) : (draws.drop m).drop n = draws.drop (m + n) := by
  funext place
  unfold drop
  rw [Nat.add_assoc, Nat.add_comm n]

end Draws

end Reckoner
