import ArmLink.Robot.Angle

/-!
# Poses

A pose is a position in meters and an orientation as roll, pitch and yaw in
radians about fixed axes. The controller's own form of it is a vector of six
numbers in millimeters and degrees. The arm has four joints, so a target is given
by a position and a yaw alone.
-/

namespace ArmLink.Robot

/-- How many joint values the controller reports. -/
abbrev jointSlots : Nat := 6

/-- How many joints the arm has. -/
abbrev armJoints : Nat := 4

/-- Where the tool is and how it is turned, in meters and radians. -/
structure Pose where
  x : Float
  y : Float
  z : Float
  roll : Float
  pitch : Float
  yaw : Float
  deriving DecidableEq, Repr

structure Quaternion (α : Type) where
  x : α
  y : α
  z : α
  w : α
  deriving DecidableEq, Repr

/-- The sine and the cosine of half an angle. -/
structure HalfAngle (α : Type) where
  sine : α
  cosine : α
  deriving DecidableEq, Repr

/-- The rotation by roll, then pitch, then yaw about fixed axes. It is a polynomial in the sines and
cosines, so it is stated for any numbers with a sum, a difference and a product. -/
def Quaternion.ofHalfAngles {α : Type} [Add α] [Sub α] [Mul α] (roll pitch yaw : HalfAngle α) :
    Quaternion α :=
  { x := roll.sine * pitch.cosine * yaw.cosine - roll.cosine * pitch.sine * yaw.sine
    y := roll.cosine * pitch.sine * yaw.cosine + roll.sine * pitch.cosine * yaw.sine
    z := roll.cosine * pitch.cosine * yaw.sine - roll.sine * pitch.sine * yaw.cosine
    w := roll.cosine * pitch.cosine * yaw.cosine + roll.sine * pitch.sine * yaw.sine }

/-- The half of an angle in radians. -/
def HalfAngle.of (angle : Float) : HalfAngle Float :=
  ⟨(angle * 0.5).sin, (angle * 0.5).cos⟩

namespace Pose

def origin : Pose := ⟨0.0, 0.0, 0.0, 0.0, 0.0, 0.0⟩

/-- A target for the four-joint arm. -/
def planar (x y z yaw : Float) : Pose :=
  { x, y, z, roll := 0.0, pitch := 0.0, yaw }

/-- The six numbers of a pose, position first. -/
def toList (pose : Pose) : List Float :=
  [pose.x, pose.y, pose.z, pose.roll, pose.pitch, pose.yaw]

def position (pose : Pose) : List Float :=
  [pose.x, pose.y, pose.z]

/-- The pose of a controller vector, in millimeters and degrees. -/
def ofController (v : Vector Float 6) : Pose :=
  { x := millimetersToMeters v[0]
    y := millimetersToMeters v[1]
    z := millimetersToMeters v[2]
    roll := degreesToRadians v[3]
    pitch := degreesToRadians v[4]
    yaw := degreesToRadians v[5] }

/-- The controller vector of a pose, in millimeters and degrees. -/
def toController (pose : Pose) : Vector Float 6 :=
  #v[metersToMillimeters pose.x, metersToMillimeters pose.y, metersToMillimeters pose.z,
    radiansToDegrees pose.roll, radiansToDegrees pose.pitch, radiansToDegrees pose.yaw]

def quaternion (pose : Pose) : Quaternion Float :=
  .ofHalfAngles (.of pose.roll) (.of pose.pitch) (.of pose.yaw)

end Pose

/-- The four numbers of a quaternion, the scalar last. -/
def Quaternion.toList {α : Type} (q : Quaternion α) : List α :=
  [q.x, q.y, q.z, q.w]

/-- How far from its target, in meters along each axis, a position counts as reached. -/
def positionTolerance : Float := 5e-3

/-- How far from its target, in radians, a yaw counts as reached. -/
def yawTolerance : Float := 1.74e-2

/-- Where the tool is and its yaw: all of a pose that four joints can set. -/
structure Stance (α : Type) where
  x : α
  y : α
  z : α
  yaw : α
  deriving DecidableEq, Repr

/-- Whether a stance counts as its goal: within one tolerance along each axis, and within another in
yaw. Like the difference of two angles, it is stated for any numbers that have what it needs. -/
def Stance.isNear {α : Type} [Sub α] [LT α] [DecidableLT α] (size : α → α) (between : α → α → α)
    (position yaw : α) (current goal : Stance α) : Bool :=
  size (current.x - goal.x) < position
    && size (current.y - goal.y) < position
    && size (current.z - goal.z) < position
    && size (between current.yaw goal.yaw) < yaw

def Pose.stance (pose : Pose) : Stance Float :=
  ⟨pose.x, pose.y, pose.z, pose.yaw⟩

/-- Whether a pose counts as its goal: within tolerance along each axis and in yaw. -/
def Pose.reaches (current goal : Pose) : Bool :=
  Stance.isNear Float.abs angleBetween positionTolerance yawTolerance current.stance goal.stance

end ArmLink.Robot
