/-!
# Units

The controller speaks millimeters and degrees, the host meters and radians. Each
conversion is one or two roundings of a double, in this order and no other: the
product is taken before the quotient.
-/

namespace ArmLink.Robot

/-- Half a turn in radians. -/
def halfTurn : Float := 3.141592653589793

/-- A whole turn in radians. -/
def fullTurn : Float := 6.283185307179586

def millimetersToMeters (value : Float) : Float :=
  value / 1000.0

def metersToMillimeters (value : Float) : Float :=
  value * 1000.0

def degreesToRadians (value : Float) : Float :=
  value * halfTurn / 180.0

def radiansToDegrees (value : Float) : Float :=
  value * 180.0 / halfTurn

end ArmLink.Robot
