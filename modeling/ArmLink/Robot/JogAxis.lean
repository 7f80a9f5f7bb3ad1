import ArmLink.Text.Blank

/-!
# Jog axes

A jog moves one coordinate, of the joints or of the tool, in one direction until
it is stopped. On the wire an axis is its coordinate and a sign.
-/

namespace ArmLink.Robot

/-- A coordinate that can be jogged: a joint, or a coordinate of the tool. -/
inductive Coordinate where
  | j1
  | j2
  | j3
  | j4
  | x
  | y
  | z
  | r
  deriving DecidableEq, Repr

def Coordinate.name : Coordinate → String
  | .j1 => "J1"
  | .j2 => "J2"
  | .j3 => "J3"
  | .j4 => "J4"
  | .x => "X"
  | .y => "Y"
  | .z => "Z"
  | .r => "R"

/-- A coordinate and the direction it moves in. -/
structure JogAxis where
  coordinate : Coordinate
  positive : Bool
  deriving DecidableEq, Repr

namespace JogAxis

def all : List JogAxis :=
  [.j1, .j2, .j3, .j4, .x, .y, .z, .r].flatMap fun c => [⟨c, true⟩, ⟨c, false⟩]

/-- How an axis is written in a command. -/
def wireName (axis : JogAxis) : String :=
  axis.coordinate.name ++ if axis.positive then "+" else "-"

def fullName (axis : JogAxis) : String :=
  axis.coordinate.name ++ if axis.positive then "Positive" else "Negative"

/-- The axis written in a text, in either case and with blanks around it. -/
def ofText? (text : String) : Option JogAxis :=
  let wanted := (Text.trim text.toList).map Char.toLower
  all.find? fun axis => axis.wireName.toList.map Char.toLower = wanted

theorem mem_all (axis : JogAxis) : axis ∈ all := by
  rcases axis with ⟨c, p⟩
  cases c <;> cases p <;> decide

end JogAxis

end ArmLink.Robot
