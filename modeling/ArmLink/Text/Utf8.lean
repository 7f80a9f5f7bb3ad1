/-!
# UTF-8

A link carries bytes and the protocols on it carry text. Decoding is a small
automaton: between characters, or inside one with the range the next byte must
lie in. A byte that cannot continue the character ends an ill-formed piece, which
is as long as some character could still have begun that way, and is then read
again as the first byte of what follows. What an ill-formed piece becomes is the
reader's decision: `decode?` refuses the text, `decodeLossy` puts one
replacement character in its place.
-/

namespace ArmLink.Text.Utf8

/-- Where the decoder stands after a byte. -/
inductive State where
  /-- Between characters. -/
  | start
  /-- Inside a character: the bits so far, the range of the next byte, and how many bytes are still
  to come after that one. -/
  | inside (bits least greatest more : Nat)
  deriving DecidableEq, Repr

/-- A decoded piece: a character, or `none` for an ill-formed run of bytes. -/
abbrev Piece := Option Char

/-- The first byte of a character: the piece it completes at once, if any, and the state after
it. -/
def first (b : Nat) : List Piece × State :=
  if b < 0x80 then ([some (Char.ofNat b)], .start)
  else if 0xC2 ≤ b ∧ b ≤ 0xDF then ([], .inside (b - 0xC0) 0x80 0xBF 0)
  else if b = 0xE0 then ([], .inside 0 0xA0 0xBF 1)
  else if b = 0xED then ([], .inside 0xD 0x80 0x9F 1)
  else if 0xE1 ≤ b ∧ b ≤ 0xEF then ([], .inside (b - 0xE0) 0x80 0xBF 1)
  else if b = 0xF0 then ([], .inside 0 0x90 0xBF 2)
  else if 0xF1 ≤ b ∧ b ≤ 0xF3 then ([], .inside (b - 0xF0) 0x80 0xBF 2)
  else if b = 0xF4 then ([], .inside 4 0x80 0x8F 2)
  else ([none], .start)

/-- One byte: the pieces it completes and the state after it. -/
def step : State → Nat → List Piece × State
  | .start, b => first b
  | .inside bits least greatest more, b =>
    if least ≤ b ∧ b ≤ greatest then
      let bits := bits * 64 + (b - 0x80)
      match more with
      | 0 => ([some (Char.ofNat bits)], .start)
      | more + 1 => ([], .inside bits 0x80 0xBF more)
    else
      let (pieces, next) := first b
      (none :: pieces, next)

/-- The pieces of the bytes from a state on; a character cut short at the end is ill-formed. -/
def piecesFrom : State → List UInt8 → List Piece
  | .start, [] => []
  | .inside .., [] => [none]
  | state, b :: rest =>
    let (pieces, next) := step state b.toNat
    pieces ++ piecesFrom next rest

/-- The text of well-formed bytes. -/
def decode? (bytes : List UInt8) : Option String :=
  ((piecesFrom .start bytes).mapM id).map String.ofList

/-- The text of any bytes, with a replacement character for each ill-formed piece. -/
def decodeLossy (bytes : List UInt8) : String :=
  String.ofList ((piecesFrom .start bytes).map (·.getD '\uFFFD'))

def encode (text : String) : List UInt8 :=
  text.toList.flatMap String.utf8EncodeChar

end ArmLink.Text.Utf8
