import ArmLink.Failure
import ArmLink.Robot.Pose

/-!
# Fault tables

The controller lists its active faults as one list of numbers for each joint
slot. It may list fewer slots than there are, and the rest are then free of
faults; more slots than there are cannot be understood.
-/

namespace ArmLink.Fault

open ArmLink.Robot (jointSlots)

/-- The active fault numbers of each joint slot. -/
structure Table where
  slots : Vector (List Int) jointSlots
  deriving DecidableEq, Repr

namespace Table

/-- The table of the lists a controller sent. -/
def ofLists (lists : List (List Int)) : Except PayloadFault Table :=
  if jointSlots < lists.length then .error (.slots jointSlots lists.length)
  else .ok ⟨Vector.ofFn fun i => lists.getD i []⟩

/-- The faults of a slot, counted from zero; a slot that does not exist has none. -/
def joint (table : Table) (i : Nat) : List Int :=
  table.slots.toList.getD i []

def hasFaults (table : Table) : Bool :=
  table.slots.toList.any fun ids => !ids.isEmpty

/-- The slots that have faults, counted from zero, each with its faults. -/
def faults (table : Table) : List (Nat × List Int) :=
  (table.slots.toList.zipIdx.filter fun (ids, _) => !ids.isEmpty).map fun (ids, i) => (i, ids)

end Table

end ArmLink.Fault
