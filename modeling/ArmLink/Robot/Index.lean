/-!
# Bounded indices

Frames, inputs, outputs and levels are chosen by small numbers, each kind within
its own bounds. An index is made once, at the edge, and carries its bounds from
there on, so no command has to look at them again.
-/

namespace ArmLink.Robot

/-- What an index chooses. -/
inductive IndexKind where
  | userFrame
  | toolFrame
  | collisionLevel
  | digitalOutput
  | digitalInput
  | toolOutput
  | analogOutput
  | arch
  deriving DecidableEq, Repr

namespace IndexKind

def name : IndexKind → String
  | .userFrame => "UserFrame"
  | .toolFrame => "ToolFrame"
  | .collisionLevel => "CollisionLevel"
  | .digitalOutput => "DoIndex"
  | .digitalInput => "DiIndex"
  | .toolOutput => "ToolDoIndex"
  | .analogOutput => "AoIndex"
  | .arch => "ArchIndex"

def least : IndexKind → Nat
  | .userFrame | .toolFrame | .collisionLevel | .arch => 0
  | .digitalOutput | .digitalInput | .toolOutput | .analogOutput => 1

def greatest : IndexKind → Nat
  | .userFrame | .toolFrame | .arch => 9
  | .collisionLevel => 5
  | .digitalOutput | .digitalInput => 16
  | .toolOutput | .analogOutput => 2

def all : List IndexKind :=
  [.userFrame, .toolFrame, .collisionLevel, .digitalOutput, .digitalInput, .toolOutput,
    .analogOutput, .arch]

def ofName? (text : String) : Option IndexKind :=
  all.find? fun kind => kind.name = text

end IndexKind

/-- An index of one kind, within its bounds. -/
structure Index (kind : IndexKind) where
  value : Nat
  least_le : kind.least ≤ value
  le_greatest : value ≤ kind.greatest
  deriving DecidableEq, Repr

def Index.ofNat? (kind : IndexKind) (value : Nat) : Option (Index kind) :=
  if h : kind.least ≤ value ∧ value ≤ kind.greatest then some ⟨value, h.1, h.2⟩ else none

/-- The level of a digital line. -/
inductive Level where
  | low
  | high
  deriving DecidableEq, Repr

def Level.ofBool (on : Bool) : Level :=
  if on then .high else .low

def Level.raw : Level → Nat
  | .low => 0
  | .high => 1

/-- Which way the arm bends. -/
inductive Handedness where
  | left
  | right
  deriving DecidableEq, Repr

def Handedness.raw : Handedness → Nat
  | .left => 0
  | .right => 1

end ArmLink.Robot
