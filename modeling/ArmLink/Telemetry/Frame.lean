import ArmLink.Telemetry.Word

/-!
# Telemetry frames

The controller sends frames of 1440 bytes. A frame begins with its own length,
and only a handful of its fields are of use here; the rest of the bytes are
passed over. A frame is what came over the wire: numbers are kept as the 64-bit
words they arrived in, so that a field can be compared with what was sent whatever
its bits mean.

`encode` is the inverse of `decode` on the fields: it writes them at their places
and zeros everywhere else.
-/

namespace ArmLink.Telemetry

/-- The size of a frame in bytes. -/
def frameSize : Nat := 1440

/-- The fields of a frame. Numbers that are not integers are the bits of a double. -/
structure Frame where
  digitalInputs : UInt64
  digitalOutputs : UInt64
  mode : UInt64
  timestamp : UInt64
  /-- Joint angles in degrees. -/
  joints : Vector UInt64 6
  /-- The tool vector in millimeters and degrees. -/
  tool : Vector UInt64 6
  brake : UInt8
  enabled : UInt8
  drag : UInt8
  running : UInt8
  error : UInt8
  /-- The orientation of the tool as a quaternion, the scalar last. -/
  quaternion : Vector UInt64 4
  deriving DecidableEq, Repr

/-- What a block of bytes turns out to be. -/
inductive Block where
  | frame (frame : Frame)
  /-- A block of the wrong size or with the wrong length field; it declares no length when it is too
  short to hold one. -/
  | discarded (declared : Option Nat)
  deriving DecidableEq, Repr

def wordAt (bytes : List UInt8) (offset : Nat) : UInt64 :=
  UInt64.ofNat (wordValue ((bytes.drop offset).take 8))

def byteAt (bytes : List UInt8) (offset : Nat) : UInt8 :=
  (bytes.drop offset).headD 0

/-- The `n` words from an offset on. -/
def wordsAt (n : Nat) (bytes : List UInt8) (offset : Nat) : Vector UInt64 n :=
  Vector.ofFn fun i => wordAt bytes (offset + 8 * i)

/-- The fields of a block of the right size. -/
def Frame.ofBytes (bytes : List UInt8) : Frame :=
  { digitalInputs := wordAt bytes 8
    digitalOutputs := wordAt bytes 16
    mode := wordAt bytes 24
    timestamp := wordAt bytes 32
    joints := wordsAt 6 bytes 432
    tool := wordsAt 6 bytes 624
    brake := byteAt bytes 1025
    enabled := byteAt bytes 1026
    drag := byteAt bytes 1027
    running := byteAt bytes 1028
    error := byteAt bytes 1029
    quaternion := wordsAt 4 bytes 1384 }

def decode (bytes : List UInt8) : Block :=
  match bytes with
  | a :: b :: _ =>
    let declared := wordValue [a, b]
    if bytes.length = frameSize ∧ declared = frameSize then .frame (.ofBytes bytes)
    else .discarded (some declared)
  | _ => .discarded none

/-- So many zero bytes. -/
def gap (n : Nat) : List UInt8 :=
  List.replicate n 0

def putWord (w : UInt64) : List UInt8 :=
  wordBytes 8 w.toNat

def putWords {n : Nat} (ws : Vector UInt64 n) : List UInt8 :=
  ws.toList.flatMap putWord

/-- Writes a frame, with zeros where it has no field. -/
def encode (f : Frame) : List UInt8 :=
  wordBytes 2 frameSize ++ gap 6
    ++ putWord f.digitalInputs ++ putWord f.digitalOutputs ++ putWord f.mode ++ putWord f.timestamp
    ++ gap 392 ++ putWords f.joints
    ++ gap 144 ++ putWords f.tool
    ++ gap 353 ++ [f.brake, f.enabled, f.drag, f.running, f.error]
    ++ gap 354 ++ putWords f.quaternion
    ++ gap 24

theorem putWords_length {n : Nat} (ws : Vector UInt64 n) : (putWords ws).length = 8 * n := by
  have h : ∀ l : List UInt64, (l.flatMap putWord).length = 8 * l.length := by
    intro l
    induction l with
    | nil => rfl
    | cons w rest ih => simp [putWord, List.flatMap_cons, ih]; omega
  simpa [putWords] using h ws.toList

theorem gap_length (n : Nat) : (gap n).length = n := List.length_replicate

theorem putWord_length (w : UInt64) : (putWord w).length = 8 := wordBytes_length 8 _

theorem encode_length (f : Frame) : (encode f).length = frameSize := by
  unfold encode
  simp only [List.length_append, wordBytes_length, gap_length, putWord_length, putWords_length,
    List.length_cons, List.length_nil]
  rfl

end ArmLink.Telemetry
