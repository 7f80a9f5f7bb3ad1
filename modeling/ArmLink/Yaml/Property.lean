import ArmLink.Text.Digit
import ArmLink.Yaml.Cursor
import ArmLink.Yaml.Token

/-!
# Tags, anchors and directives

A node may carry a tag and an anchor, an alias repeats an anchor, and directives
in front of a document give its version and the handles that its tags may use. A
tag's text may hold bytes by their number, so it is kept as bytes; a byte with the
number zero ends it, and what follows must be well formed but means nothing.
-/

namespace ArmLink.Yaml

open ArmLink.Text (digitValue? hexValue?)

/-- The characters that a tag may hold. Inside angle brackets there are three more. -/
def isTagChar (verbatim : Bool) (c : Char) : Bool :=
  isNameChar c || [';', '/', '?', ':', '@', '&', '=', '+', '$', '.', '!', '~', '*', '\'', '(',
    ')'].contains c || (verbatim && [',', '[', ']'].contains c)

/-- The byte behind a percent sign. -/
def readOctet? (c : Cursor) : Option Nat := do
  if c.at? '%' then
    let high ← c.ahead 1 >>= hexValue?
    let low ← c.ahead 2 >>= hexValue?
    return 16 * high + low
  else none

/-- How many bytes continue a character whose first byte this is. -/
def continuations? (octet : Nat) : Option Nat :=
  if octet < 0x80 then some 0
  else if 0xC0 ≤ octet ∧ octet < 0xE0 then some 1
  else if 0xE0 ≤ octet ∧ octet < 0xF0 then some 2
  else if 0xF0 ≤ octet ∧ octet < 0xF8 then some 3
  else none

/-- The continuing bytes of a character, each behind a percent sign. -/
def readContinuation? : Nat → Cursor → Option (List UInt8 × Cursor)
  | 0, c => some ([], c)
  | n + 1, c => do
    let octet ← readOctet? c
    if 0x80 ≤ octet ∧ octet < 0xC0 then
      let (more, c) ← readContinuation? n (c.skip 3)
      return (UInt8.ofNat octet :: more, c)
    else none

/-- The text of a tag from a place on. -/
def readTagText? (verbatim : Bool) : Nat → Cursor → Option (List UInt8 × Cursor)
  | 0, _ => none
  | fuel + 1, c =>
    match c.next with
    | none => some ([], c)
    | some x =>
      if x = '%' then do
        let octet ← readOctet? c
        let (more, c) ← readContinuation? (← continuations? octet) (c.skip 3)
        let (rest, c) ← readTagText? verbatim fuel c
        return (UInt8.ofNat octet :: more ++ rest, c)
      else if isTagChar verbatim x then do
        let (rest, c) ← readTagText? verbatim fuel (c.skip 1)
        return (String.utf8EncodeChar x ++ rest, c)
      else some ([], c)

/-- The text of a tag up to a zero byte. Something must be written unless something stands in front
of it. -/
def readTagRest? (verbatim lead : Bool) (fuel : Nat) (c : Cursor) :
    Option (List UInt8 × Cursor) := do
  let (text, c) ← readTagText? verbatim fuel c
  if text = [] ∧ ¬ lead then none else some (text.takeWhile (· ≠ 0), c)

/-- A handle: an exclamation mark, or a name between two of them. Without the second mark it is only
the beginning of a tag, and it says so. -/
def readHandle? (c : Cursor) : Option (List Char × Bool × Cursor) :=
  if c.at? '!' then
    let name := (c.skip 1).run isNameChar
    let next := c.skip (1 + name.length)
    if next.at? '!' then some ('!' :: name ++ ['!'], true, next.skip 1)
    else some ('!' :: name, false, next)
  else none

/-- The bytes of characters of ASCII. -/
def asciiBytes (cs : List Char) : List UInt8 :=
  cs.flatMap String.utf8EncodeChar

def readTag? (flow : Bool) (fuel : Nat) (c : Cursor) : Option (Token × Cursor) := do
  let (token, c) ←
    if c.ahead? 1 '<' then do
      let (text, c) ← readTagRest? true false fuel (c.skip 2)
      if c.at? '>' then some (Token.tag [] text, c.skip 1) else none
    else do
      let (handle, closed, c) ← readHandle? c
      if closed then
        let (text, c) ← readTagRest? false false fuel c
        some (Token.tag handle text, c)
      else
        let (text, c) ← readTagRest? false true fuel c
        let text := asciiBytes (handle.drop 1) ++ text
        some (if text = [] then Token.tag [] (asciiBytes ['!']) else Token.tag ['!'] text, c)
  if c.gapAhead 0 || (flow && c.at? ',') then some (token, c) else none

/-- Reads the name of an anchor or an alias behind its indicator. -/
def readName? (c : Cursor) : Option (List Char × Cursor) :=
  let name := (c.skip 1).run isNameChar
  let next := c.skip (1 + name.length)
  if name = [] then none
  else if next.gapAhead 0 || ['?', ':', ',', ']', '\x7d', '%', '@', '\x60'].any next.at? then
    some (name, next)
  else none

/-- Reads a part of a version number: at most nine digits. -/
def readVersionPart? (c : Cursor) : Option (Nat × Cursor) :=
  let digits := c.run fun x => (digitValue? x).isSome
  if digits = [] ∨ 9 < digits.length then none
  else some (digits.foldl (fun n d => 10 * n + (digitValue? d).getD 0) 0, c.skip digits.length)

/-- Reads a directive, up to and with the end of its line. -/
def readDirective? (fuel : Nat) (c : Cursor) : Option (Token × Cursor) := do
  let name := (c.skip 1).run isNameChar
  let c := c.skip (1 + name.length)
  let (token, c) ←
    if name = [] ∨ ¬ c.gapAhead 0 then none
    else if name = ['Y', 'A', 'M', 'L'] then do
      let (major, c) ← readVersionPart? (c.skipWhile isBlank)
      if c.at? '.' then
        let (minor, c) ← readVersionPart? (c.skip 1)
        some (Token.version major minor, c)
      else none
    else if name = ['T', 'A', 'G'] then do
      let (handle, closed, c) ← readHandle? (c.skipWhile isBlank)
      if ¬ (closed || handle = ['!']) || ¬ c.blankAhead 0 then none
      else
        let (stem, c) ← readTagRest? true false fuel (c.skipWhile isBlank)
        if c.gapAhead 0 then some (Token.handle handle stem, c) else none
    else none
  return (token, ← c.endLine?)

end ArmLink.Yaml
