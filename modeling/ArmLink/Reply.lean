import ArmLink.Payload

/-!
# Replies

A reply is a status, a payload in braces and an echo of the command it answers,
`status,{payload},Echo(…);`. Blanks and NUL characters around it carry nothing.
Neither the payload nor the echo is free of braces and commas, so the rule that
separates them matters: the echo begins behind the last brace that is followed by
a comma.
-/

namespace ArmLink

open ArmLink.Text (isBlank isDecimalDigit strip trim)

/-- A reply of the controller. -/
structure Reply where
  status : Int
  /-- What stands between the outer braces, without blanks around it. -/
  payload : String
  /-- The echoed command, without the terminator. -/
  echo : String
  /-- The whole reply, without what surrounds it. -/
  line : String
  deriving DecidableEq, Repr

namespace Reply

/-- Ends a reply. -/
def terminator : Char := ';'

/-- The characters that may surround a reply: blanks and NUL. -/
def isPadding (c : Char) : Bool :=
  isBlank c || c == '\x00'

/-- Splits a status field, an optional minus sign and digits of any script, from what follows. -/
def splitStatus? (cs : List Char) : Option (List Char × List Char) :=
  let (sign, rest) :=
    match cs with
    | '-' :: rest => (['-'], rest)
    | rest => ([], rest)
  let (ds, rest) := (rest.takeWhile isDecimalDigit, rest.dropWhile isDecimalDigit)
  if ds = [] then none else some (sign ++ ds, rest)

/-- Splits a reversed text at the first comma that has a closing brace behind it, which is the last
`},` of the text itself: the two parts, in reading order. -/
def splitReversed? (after : List Char) : List Char → Option (List Char × List Char)
  | ',' :: '\x7d' :: rest => some (rest.reverse, after)
  | c :: rest => splitReversed? (c :: after) rest
  | [] => none

/-- Splits payload and echo, which ends in the terminator. -/
def splitBody? (cs : List Char) : Option (List Char × List Char) :=
  match cs.reverse with
  | c :: rest => if c = terminator then splitReversed? [] rest else none
  | [] => none

/-- The status field, the payload and the echo of a reply without padding. -/
def split? (cs : List Char) : Option (List Char × List Char × List Char) :=
  match splitStatus? cs with
  | some (status, ',' :: '\x7b' :: rest) =>
    (splitBody? rest).map fun (payload, echo) => (status, payload, echo)
  | _ => none

/-- Reads a reply. A fault keeps the line as it came. -/
def parse (line : String) : Except Failure Reply :=
  let body := strip isPadding line.toList
  match split? body with
  | none => .error (.malformed .shape line)
  | some (status, payload, echo) =>
    match Decimal.readInteger Decimal.int32 status with
    | .error fault => .error (.malformed (.status fault) line)
    | .ok status =>
      .ok
        { status
          payload := String.ofList (trim payload)
          echo := String.ofList (trim echo)
          line := String.ofList body }

def accepted (reply : Reply) : Bool :=
  reply.status = 0

def echoName (reply : Reply) : String :=
  String.ofList (trim (reply.echo.toList.takeWhile (· ≠ '(')))

/-- A reading of the payload as part of the reply, so that a fault comes with its line. -/
def reading {α : Type} (reply : Reply) : Except PayloadFault α → Except Failure α
  | .ok value => .ok value
  | .error fault => .error (.malformed fault reply.line)

def numbers (reply : Reply) : Except Failure (List Float) :=
  reply.reading (Payload.readNumbers reply.payload.toList)

def lists (reply : Reply) : Except Failure (List (List Int)) :=
  reply.reading (Payload.readLists reply.payload.toList)

/-- The payload as exactly `n` numbers. -/
def vector (reply : Reply) (n : Nat) : Except Failure (Vector Float n) := do
  let values ← reply.numbers
  if h : values.length = n then .ok ⟨values.toArray, by simpa using h⟩
  else .error (.malformed (.count n values.length) reply.line)

def integer (reply : Reply) : Except Failure Int := do
  let values ← reply.vector 1
  if Decimal.isWhole values[0] then .ok (Decimal.toInt64 values[0])
  else .error (.malformed .notWhole reply.line)

/-- The written form of a reply: what a controller sends for a status, a payload and the text of the
command it answers. -/
def written (status : Int) (payload echo : String) : String :=
  String.ofList
    (Decimal.integerChars status ++ [',', '\x7b'] ++ payload.toList ++ ['\x7d', ',']
      ++ echo.toList ++ [terminator])

end Reply

end ArmLink
