/-!
# A place in a text

Indentation gives a YAML text its structure, so a reader has to know the line and
the column it stands at as well as what is left to read. A cursor carries the
three together with the count of bytes read, which bounds how far a key may
reach. A column counts characters, and a byte order mark is one.
-/

namespace ArmLink.Yaml

/-- Whether a document may hold this character at all. -/
def isAllowed (c : Char) : Bool :=
  let n := c.toNat
  n == 9 || n == 10 || n == 13 || (0x20 ≤ n && n ≤ 0x7E) || n == 0x85
    || (0xA0 ≤ n && n ≤ 0xD7FF) || (0xE000 ≤ n && n ≤ 0xFFFD) || 0x10000 ≤ n

/-- The blanks inside a line. -/
def isBlank (c : Char) : Bool :=
  c == ' ' || c == '\t'

/-- The characters that end a line. -/
def isBreak (c : Char) : Bool :=
  c == '\r' || c == '\n' || c == '\x85' || c == '\u2028' || c == '\u2029'

def isNameChar (c : Char) : Bool :=
  c.isAlphanum || c == '_' || c == '-'

/-- How many bytes characters take in UTF-8. -/
def byteSize (cs : List Char) : Nat :=
  cs.foldl (fun n c => n + c.utf8Size) 0

structure Cursor where
  rest : List Char
  /-- How many bytes come before it. -/
  index : Nat
  line : Nat
  column : Nat
  deriving DecidableEq, Repr

namespace Cursor

def start (cs : List Char) : Cursor := ⟨cs, 0, 0, 0⟩

def next (c : Cursor) : Option Char := c.rest.head?

/-- The character `n` places ahead. -/
def ahead (c : Cursor) (n : Nat) : Option Char := c.rest[n]?

def atEnd (c : Cursor) : Bool := c.rest.isEmpty

def at? (c : Cursor) (x : Char) : Bool := c.next == some x

/-- Whether the character `n` places ahead is this one. -/
def ahead? (c : Cursor) (n : Nat) (x : Char) : Bool := c.ahead n == some x

def blankAhead (c : Cursor) (n : Nat) : Bool := (c.ahead n).any isBlank

def breakAhead (c : Cursor) (n : Nat) : Bool := (c.ahead n).any isBreak

/-- Whether a line break or the end is `n` places ahead. -/
def stopAhead (c : Cursor) (n : Nat) : Bool := (c.ahead n).all isBreak

/-- Whether a blank, a line break or the end is `n` places ahead. -/
def gapAhead (c : Cursor) (n : Nat) : Bool := (c.ahead n).all fun x => isBlank x || isBreak x

/-- The place `n` characters on, in the same line. -/
def skip (c : Cursor) (n : Nat) : Cursor :=
  { c with
    rest := c.rest.drop n, index := c.index + byteSize (c.rest.take n), column := c.column + n }

/-- The place behind the longest run of such characters, in the same line. -/
def skipWhile (c : Cursor) (p : Char → Bool) : Cursor :=
  c.skip (c.rest.takeWhile p).length

/-- The longest run of such characters, in the same line. -/
def run (c : Cursor) (p : Char → Bool) : List Char :=
  c.rest.takeWhile p

/-- The place behind a line break of `n` characters. -/
def newline (c : Cursor) (n : Nat) : Cursor :=
  { rest := c.rest.drop n, index := c.index + byteSize (c.rest.take n), line := c.line + 1
    column := 0 }

/-- The line break at a place as it counts in a scalar, and the place behind it. Every break but the
two separators of Unicode counts as a line feed. -/
def takeBreak (c : Cursor) : List Char × Cursor :=
  match c.rest with
  | '\r' :: '\n' :: _ => (['\n'], c.newline 2)
  | '\u2028' :: _ => (['\u2028'], c.newline 1)
  | '\u2029' :: _ => (['\u2029'], c.newline 1)
  | x :: _ => if isBreak x then (['\n'], c.newline 1) else ([], c)
  | [] => ([], c)

/-- The place behind a byte order mark, which any line may begin with. -/
def skipByteOrderMark (c : Cursor) : Cursor :=
  if c.column == 0 && c.at? '\uFEFF' then c.skip 1 else c

/-- The place behind a comment, if one begins here. -/
def skipComment (c : Cursor) : Cursor :=
  if c.at? '#' then c.skipWhile fun x => !isBreak x else c

/-- Whether a line begins here with three of these characters and nothing attached: the mark of a
document's beginning or end. -/
def documentMark (c : Cursor) (x : Char) : Bool :=
  c.column == 0 && c.at? x && c.ahead? 1 x && c.ahead? 2 x && c.gapAhead 3

/-- Whether a document mark of either kind stands here. -/
def atDocumentMark (c : Cursor) : Bool :=
  c.documentMark '-' || c.documentMark '.'

/-- The place behind a line's remaining blanks, comment and break; `none` if anything else is left
on it. -/
def endLine? (c : Cursor) : Option Cursor :=
  let c := (c.skipWhile isBlank).skipComment
  if c.stopAhead 0 then some c.takeBreak.2 else none

end Cursor

end ArmLink.Yaml
