import ArmLink.Decimal.Integer

/-!
# Reading JSON

Reading has two stages. The first follows the grammar alone: a string is kept as
its characters and escaped units, a number as its text. The second belongs to
whoever uses a part of the document: only then does a string have to be text (its
surrogates in pairs) and a number have to fit. What nobody uses only has to be
grammatical.
-/

namespace ArmLink.Json

open ArmLink.Text (digitValue? hexValue?)

/-- A piece of a string as it is written: a character, or a UTF-16 unit given by its number. -/
inductive Piece where
  | char (c : Char)
  | unit (n : Nat)
  deriving DecidableEq, Repr

/-- A JSON document as it is written. -/
inductive Document where
  | null
  | boolean (value : Bool)
  | number (literal : List Char)
  | text (pieces : List Piece)
  | array (elements : List Document)
  | object (members : List (List Piece × Document))
  deriving Repr

/-- The blanks between tokens. -/
def isSpace (c : Char) : Bool :=
  c == ' ' || c == '\n' || c == '\t' || c == '\r'

/-- A text from its first token on. -/
def skipSpace (cs : List Char) : List Char :=
  cs.dropWhile isSpace

/-- The character behind a backslash, when it stands for one character. -/
def escaped? : Char → Option Char
  | '"' => some '"'
  | '\\' => some '\\'
  | '/' => some '/'
  | 'b' => some '\x08'
  | 'f' => some '\x0c'
  | 'n' => some '\n'
  | 'r' => some '\r'
  | 't' => some '\t'
  | _ => none

/-- The number of four hexadecimal digits. -/
def hex4? (a b c d : Char) : Option Nat := do
  let a ← hexValue? a
  let b ← hexValue? b
  let c ← hexValue? c
  let d ← hexValue? d
  return ((a * 16 + b) * 16 + c) * 16 + d

/-- The pieces of a string from behind its opening quote, and what follows the closing one. -/
def readPieces : List Char → Option (List Piece × List Char)
  | [] => none
  | '"' :: rest => some ([], rest)
  | '\\' :: 'u' :: a :: b :: c :: d :: rest => do
    let n ← hex4? a b c d
    let (pieces, rest) ← readPieces rest
    return (.unit n :: pieces, rest)
  | '\\' :: e :: rest => do
    let c ← escaped? e
    let (pieces, rest) ← readPieces rest
    return (.char c :: pieces, rest)
  | c :: rest =>
    if c = '\\' ∨ c.toNat < 0x20 then none
    else do
      let (pieces, rest) ← readPieces rest
      return (.char c :: pieces, rest)

def takeDigits (cs : List Char) : List Char × List Char :=
  (cs.takeWhile fun c => (digitValue? c).isSome, cs.dropWhile fun c => (digitValue? c).isSome)

/-- Digits at the front of a text; at least one. -/
def someDigits? (cs : List Char) : Option (List Char × List Char) :=
  match takeDigits cs with
  | ([], _) => none
  | (ds, rest) => some (ds, rest)

def readFraction? : List Char → Option (List Char × List Char)
  | '.' :: rest => (someDigits? rest).map fun (ds, rest) => ('.' :: ds, rest)
  | rest => some ([], rest)

def readExponent? : List Char → Option (List Char × List Char)
  | c :: rest =>
    if c = 'e' ∨ c = 'E' then
      match rest with
      | s :: digits =>
        if s = '+' ∨ s = '-' then
          (someDigits? digits).map fun (ds, rest) => (c :: s :: ds, rest)
        else (someDigits? rest).map fun (ds, rest) => (c :: ds, rest)
      | [] => none
    else some ([], c :: rest)
  | [] => some ([], [])

/-- The digits in front of the point: a single zero, or digits that do not begin with one. -/
def readWhole? (cs : List Char) : Option (List Char × List Char) :=
  match cs with
  | '0' :: rest => some (['0'], rest)
  | _ => someDigits? cs

def readNumber? (cs : List Char) : Option (List Char × List Char) := do
  let (sign, cs) :=
    match cs with
    | '-' :: rest => (['-'], rest)
    | rest => ([], rest)
  let (whole, cs) ← readWhole? cs
  let (fraction, cs) ← readFraction? cs
  let (exponent, cs) ← readExponent? cs
  return (sign ++ whole ++ fraction ++ exponent, cs)

mutual

/-- Reads a value and what follows it. Every level of nesting and every element takes one unit of
`fuel`. -/
def readValue : Nat → List Char → Option (Document × List Char)
  | 0, _ => none
  | fuel + 1, cs =>
    match skipSpace cs with
    | 'n' :: 'u' :: 'l' :: 'l' :: rest => some (.null, rest)
    | 't' :: 'r' :: 'u' :: 'e' :: rest => some (.boolean true, rest)
    | 'f' :: 'a' :: 'l' :: 's' :: 'e' :: rest => some (.boolean false, rest)
    | '"' :: rest => (readPieces rest).map fun (pieces, rest) => (.text pieces, rest)
    | '[' :: rest =>
      match skipSpace rest with
      | ']' :: rest => some (.array [], rest)
      | rest => (readElements fuel rest).map fun (elements, rest) => (.array elements, rest)
    | '\x7b' :: rest =>
      match skipSpace rest with
      | '\x7d' :: rest => some (.object [], rest)
      | rest => (readMembers fuel rest).map fun (members, rest) => (.object members, rest)
    | rest => (readNumber? rest).map fun (literal, rest) => (.number literal, rest)

def readElements : Nat → List Char → Option (List Document × List Char)
  | 0, _ => none
  | fuel + 1, cs => do
    let (element, rest) ← readValue fuel cs
    match skipSpace rest with
    | ',' :: rest =>
      let (elements, rest) ← readElements fuel rest
      return (element :: elements, rest)
    | ']' :: rest => return ([element], rest)
    | _ => none

def readMembers : Nat → List Char → Option (List (List Piece × Document) × List Char)
  | 0, _ => none
  | fuel + 1, cs => do
    match skipSpace cs with
    | '"' :: rest =>
      let (key, rest) ← readPieces rest
      match skipSpace rest with
      | ':' :: rest =>
        let (value, rest) ← readValue fuel rest
        match skipSpace rest with
        | ',' :: rest =>
          let (members, rest) ← readMembers fuel rest
          return ((key, value) :: members, rest)
        | '\x7d' :: rest => return ([(key, value)], rest)
        | _ => none
      | _ => none
    | _ => none

end

/-- Reads a whole document: one value with nothing but blanks around it. Each unit of fuel a value
needs is backed by a character of its own, so the length of the text and a little more is enough. -/
def Document.ofText? (text : String) : Option Document :=
  let cs := text.toList
  match readValue (2 * cs.length + 2) cs with
  | some (value, rest) => if skipSpace rest = [] then some value else none
  | none => none

/-- The text of a string. Units that are not characters have to come in pairs, the high one
first. -/
def piecesText? : List Piece → Option (List Char)
  | [] => some []
  | .char c :: rest => (piecesText? rest).map (c :: ·)
  | .unit high :: .unit low :: rest =>
    if 0xD800 ≤ high ∧ high < 0xDC00 then
      if 0xDC00 ≤ low ∧ low < 0xE000 then
        (piecesText? rest).map
          (Char.ofNat (0x10000 + (high - 0xD800) * 0x400 + (low - 0xDC00)) :: ·)
      else none
    else if 0xDC00 ≤ high ∧ high < 0xE000 then none
    else (piecesText? (.unit low :: rest)).map (Char.ofNat high :: ·)
  | .unit n :: rest =>
    if 0xD800 ≤ n ∧ n < 0xE000 then none else (piecesText? rest).map (Char.ofNat n :: ·)

namespace Document

/-- The text of a string value. -/
def string? : Document → Option String
  | .text pieces => (piecesText? pieces).map String.ofList
  | _ => none

def members? : Document → Option (List (String × Document))
  | .object members => members.mapM fun (key, value) => do
    return (String.ofList (← piecesText? key), value)
  | _ => none

/-- The integer of a number value, when it has no fraction and no exponent and fits 64 bits. A
negative zero is no integer. -/
def integer? : Document → Option Int
  | .number literal =>
    if literal = ['-', '0'] then none
    else (Decimal.readInteger Decimal.int64 literal).toOption
  | _ => none

/-- The member of a name among several, which may be absent but must not be there twice: `none` when
it is. -/
def unique? (name : String) (members : List (String × Document)) : Option (Option Document) :=
  match members.filter fun (key, _) => key = name with
  | [] => some none
  | [(_, value)] => some (some value)
  | _ => none

/-- A record with two fields: an object that has both, among any others, or an array of exactly
these two. -/
def pair? (first second : String) : Document → Option (Document × Document)
  | .array [a, b] => some (a, b)
  | document => do
    let members ← document.members?
    let a ← unique? first members
    let b ← unique? second members
    return (← a, ← b)

/-- A record with one field, likewise. -/
def single? (name : String) : Document → Option Document
  | .array [a] => some a
  | document => do
    let members ← document.members?
    let a ← unique? name members
    a

end Document

end ArmLink.Json
