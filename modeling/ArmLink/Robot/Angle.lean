import ArmLink.Decimal.Binary64
import ArmLink.Robot.Units

/-!
# Differences of angles

The difference of two angles is brought into one turn: first the remainder
towards zero, which is less than a turn on either side, then one whole turn more
or less when that passes half a turn. The two ends of the half turn are one
direction, and the positive one is kept.

The rule needs a sum, a difference, an order and a remainder, and nothing else of
the numbers it is used on, so it is stated for any that have them.
-/

namespace ArmLink.Robot

/-- The difference from `b` to `a` within half a turn, where `half` and `full` are half a turn and a
whole one. -/
def turnBetween {α : Type} [Add α] [Sub α] [Neg α] [LT α] [LE α] [DecidableLT α] [DecidableLE α]
    (half full : α) (remainder : α → α → α) (a b : α) : α :=
  let d := remainder (a - b) full
  if half < d then d - full
  else if d ≤ -half then d + full
  else d

/-- The difference from `b` to `a` in radians, within half a turn. -/
def angleBetween (a b : Float) : Float :=
  turnBetween halfTurn fullTurn Decimal.remainder a b

end ArmLink.Robot
