import ArmLink.Config
import ArmLink.Link

/-!
# Keeping the motion link up

A keeper runs beside the commands and alone decides when the motion link is
dialed: it looks, dials when the link is down, and rests. After a dial that
failed it rests for one time, otherwise for another. It is told to stop by a flag,
which it sees when it looks, and it does not rest any longer once the flag is
down.

Its steps are the smallest that others could come between: one look at the flag,
one look at the link, one dial.
-/

namespace ArmLink.Motion

/-- Where a keeper stands. -/
inductive Keeper where
  /-- It is to look whether it shall go on. -/
  | looking
  /-- It is to look at the link. -/
  | probing
  | dialing
  /-- It rests until a time. -/
  | resting (wake : Nat)
  | finished
  deriving DecidableEq, Repr

/-- One step of a keeper; `none` when it rests, waits or has finished. -/
def Keeper.step (patience : Patience) (now : Nat) (keeping : Bool) :
    Keeper → Link → Option (Keeper × Link)
  | looking, link => some (if keeping then .probing else .finished, link)
  | probing, link =>
    some (if link.up then .resting (now + patience.watch) else .dialing, link)
  | dialing, link =>
    match link.dial with
    | (.connected, link) => some (.resting (now + patience.watch), link)
    | (.failed _, link) => some (.resting (now + patience.retry), link)
    | (.waiting, _) => none
  | resting wake, link => if keeping && decide (now < wake) then none else some (.looking, link)
  | finished, _ => none

end ArmLink.Motion
