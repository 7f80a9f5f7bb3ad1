import ArmLink.Text.Digit
import ArmLink.Yaml.Cursor
import ArmLink.Yaml.Token

/-!
# Scalars

A scalar may run over several lines. Between the pieces of two lines stands one
blank, or one line break fewer than were written; a block scalar keeps the breaks
where its indentation says so. All four forms are read here, each from its first
character to behind its last one.

Every step takes a character, so a scalar never needs more fuel than the text has
characters left. What is gathered on the way is kept in reverse.
-/

namespace ArmLink.Yaml

open ArmLink.Text (digitValue? hexValue?)

/-- What separates two pieces of a scalar that is folded. -/
structure Separation where
  /-- The blanks on the line in reverse, as long as no break has come. -/
  blanks : List Char
  /-- The first line break. -/
  first : List Char
  /-- The further line breaks in reverse. -/
  further : List Char
  /-- Whether a line break has come. -/
  broken : Bool
  deriving DecidableEq, Repr

namespace Separation

def none : Separation := ⟨[], [], [], false⟩

/-- Behind a line break that is not to appear. -/
def escaped : Separation := ⟨[], [], [], true⟩

/-- How a separation appears in the scalar, in reverse. -/
def folded (s : Separation) : List Char :=
  if s.broken then
    if s.first.head? = some '\n' then (if s.further = [] then [' '] else s.further)
    else s.further ++ s.first
  else s.blanks

/-- The separation with one more line break. -/
def addBreak (s : Separation) (chars : List Char) : Separation :=
  if s.broken then { s with further := chars ++ s.further }
  else { blanks := [], first := chars, further := s.further, broken := true }

def addBlank (s : Separation) (c : Char) : Separation :=
  if s.broken then s else { s with blanks := c :: s.blanks }

end Separation

/-- Reads the blanks and line breaks of a separation. Behind a break, a tab before column `indent`
is refused. -/
def readSeparation (indent : Int) : Nat → Separation → Cursor → Option (Separation × Cursor)
  | 0, s, c => some (s, c)
  | fuel + 1, s, c =>
    match c.next with
    | none => some (s, c)
    | some x =>
      if isBlank x then
        if s.broken ∧ (c.column : Int) < indent ∧ x = '\t' then none
        else readSeparation indent fuel (s.addBlank x) (c.skip 1)
      else if isBreak x then
        let (chars, c) := c.takeBreak
        readSeparation indent fuel (s.addBreak chars) c
      else some (s, c)

/-- The number of some hexadecimal digits. -/
def hexNumber? (cs : List Char) : Option Nat :=
  cs.foldlM (fun n c => (hexValue? c).map (16 * n + ·)) 0

/-- The character behind a backslash that stands for one, and the count of hexadecimal digits that
follow when it is given by its number. -/
def escape? : Char → Option (Char ⊕ Nat)
  | '0' => some (.inl '\x00')
  | 'a' => some (.inl '\x07')
  | 'b' => some (.inl '\x08')
  | 't' => some (.inl '\t')
  | '\t' => some (.inl '\t')
  | 'n' => some (.inl '\n')
  | 'v' => some (.inl '\x0b')
  | 'f' => some (.inl '\x0c')
  | 'r' => some (.inl '\r')
  | 'e' => some (.inl '\x1b')
  | ' ' => some (.inl ' ')
  | '"' => some (.inl '"')
  | '/' => some (.inl '/')
  | '\\' => some (.inl '\\')
  | 'N' => some (.inl '\x85')
  | '_' => some (.inl '\xa0')
  | 'L' => some (.inl '\u2028')
  | 'P' => some (.inl '\u2029')
  | 'x' => some (.inr 2)
  | 'u' => some (.inr 4)
  | 'U' => some (.inr 8)
  | _ => none

/-- The character of an escape sequence, and the place behind it. -/
def readEscape? (c : Cursor) : Option (Char × Cursor) := do
  match ← escape? (← c.ahead 1) with
  | .inl x => return (x, c.skip 2)
  | .inr count =>
    let digits := (c.skip 2).rest.take count
    if digits.length = count then
      let n ← hexNumber? digits
      if n.isValidChar then return (Char.ofNat n, c.skip (2 + count)) else none
    else none

/-- A run of characters inside quotes: the characters in reverse, the place behind them, and whether
the run ended in a line break that is not to appear. -/
def readQuotedRun (single : Bool) : Nat → List Char → Cursor → Option (List Char × Cursor × Bool)
  | 0, taken, c => some (taken, c, false)
  | fuel + 1, taken, c =>
    match c.next with
    | none => some (taken, c, false)
    | some x =>
      if isBlank x || isBreak x then some (taken, c, false)
      else if single then
        if x = '\'' then
          if c.ahead? 1 '\'' then readQuotedRun single fuel ('\'' :: taken) (c.skip 2)
          else some (taken, c, false)
        else readQuotedRun single fuel (x :: taken) (c.skip 1)
      else if x = '"' then some (taken, c, false)
      else if x = '\\' then
        if c.breakAhead 1 then some (taken, (c.skip 1).takeBreak.2, true)
        else
          match readEscape? c with
          | some (e, c) => readQuotedRun single fuel (e :: taken) c
          | none => none
      else readQuotedRun single fuel (x :: taken) (c.skip 1)

/-- The rest of a quoted scalar from behind its opening quote. -/
def readQuotedRest (single : Bool) : Nat → List Char → Cursor → Option (List Char × Cursor)
  | 0, _, _ => none
  | fuel + 1, taken, c =>
    if c.atDocumentMark || c.atEnd then none
    else
      match readQuotedRun single (fuel + 1) taken c with
      | none => none
      | some (taken, c, escaped) =>
        if c.at? (if single then '\'' else '"') then some (taken, c.skip 1)
        else
          let s := if escaped then Separation.escaped else .none
          match readSeparation 0 (fuel + 1) s c with
          | none => none
          | some (s, c) => readQuotedRest single fuel (s.folded ++ taken) c

def readQuoted? (single : Bool) (fuel : Nat) (c : Cursor) : Option (List Char × Cursor) :=
  (readQuotedRest single fuel [] (c.skip 1)).map fun (taken, c) => (taken.reverse, c)

/-- Whether a plain scalar inside a flow collection ends here. -/
def isFlowEnd (x : Char) : Bool :=
  x == ',' || x == '[' || x == ']' || x == '\x7b' || x == '\x7d'

/-- A run of characters of a plain scalar: the characters in reverse and the place behind them. In a
flow collection a colon must not run into an indicator. -/
def readPlainRun (flow : Bool) : Nat → List Char → Cursor → Option (List Char × Cursor)
  | 0, taken, c => some (taken, c)
  | fuel + 1, taken, c =>
    match c.next with
    | none => some (taken, c)
    | some x =>
      if isBlank x || isBreak x then some (taken, c)
      else if flow && x == ':' && (c.ahead 1).any (fun y => isFlowEnd y || y == '?') then none
      else if (x == ':' && c.gapAhead 1) || (flow && isFlowEnd x) then some (taken, c)
      else readPlainRun flow fuel (x :: taken) (c.skip 1)

/-- What reading a plain scalar gave: its characters in reverse, the place behind it and the
blanks after it, and whether a line break is among those. -/
structure Plain where
  taken : List Char
  place : Cursor
  broken : Bool
  deriving DecidableEq, Repr

/-- The rest of a plain scalar; `s` separates what comes from what has been taken. -/
def readPlainRest (flow : Bool) (indent : Int) :
    Nat → List Char → Separation → Cursor → Option Plain
  | 0, _, _, _ => none
  | fuel + 1, taken, s, c =>
    if c.atDocumentMark || c.at? '#' then some ⟨taken, c, s.broken⟩
    else
      match readPlainRun flow (fuel + 1) [] c with
      | none => none
      | some (run, next) =>
        let (taken, s) := if run = [] then (taken, s) else (run ++ (s.folded ++ taken), .none)
        if next.atEnd || !next.gapAhead 0 then some ⟨taken, next, s.broken⟩
        else
          match readSeparation indent (fuel + 1) s next with
          | none => none
          | some (s, next) =>
            if !flow && (next.column : Int) < indent then some ⟨taken, next, s.broken⟩
            else readPlainRest flow indent fuel taken s next

/-- Reads a plain scalar inside a block of the indentation given. -/
def readPlain? (flow : Bool) (indent : Int) (fuel : Nat) (c : Cursor) : Option Plain :=
  (readPlainRest flow (indent + 1) fuel [] .none c).map fun p =>
    { p with taken := p.taken.reverse }

/-- What becomes of the line breaks at the end of a block scalar. -/
inductive Chomping where
  | strip
  | clip
  | keep
  deriving DecidableEq, Repr

/-- The header of a block scalar: what becomes of its last breaks, and how far it is indented beyond
its surroundings, if that is given. -/
structure Header where
  chomping : Chomping
  increment : Option Nat
  deriving DecidableEq, Repr

/-- The chomping indicator at a place, and the place behind it. -/
def readChomping (c : Cursor) : Option Chomping × Cursor :=
  if c.at? '+' then (some .keep, c.skip 1)
  else if c.at? '-' then (some .strip, c.skip 1)
  else (none, c)

/-- The indentation indicator at a place, and the place behind it; zero is none. -/
def readIncrement (c : Cursor) : Option (Option Nat × Cursor) :=
  match c.next >>= digitValue? with
  | none => some (none, c)
  | some 0 => none
  | some n => some (some n, c.skip 1)

/-- Reads the header of a block scalar, in either order. -/
def readHeader? (c : Cursor) : Option (Header × Cursor) := do
  match readChomping c with
  | (some chomping, c) =>
    let (increment, c) ← readIncrement c
    return (⟨chomping, increment⟩, c)
  | (none, c) =>
    let (increment, c) ← readIncrement c
    if increment.isNone then return (⟨.clip, none⟩, c)
    else
      let (chomping, c) := readChomping c
      return (⟨chomping.getD .clip, increment⟩, c)

/-- The line breaks in front of a line of a block scalar, in reverse. While the indentation is not
known, every leading space counts, and the longest run seen is kept. -/
def readBlockBreaks (indent : Option Nat) :
    Nat → Nat → List Char → Cursor → Option (Nat × List Char × Cursor)
  | 0, _, _, _ => none
  | fuel + 1, longest, breaks, c =>
    let spaces := (c.run (· == ' ')).length
    let c := c.skip (match indent with
      | some n => min spaces (n - c.column)
      | none => spaces)
    let longest := max longest c.column
    if c.at? '\t' && (match indent with
        | some n => decide (c.column < n)
        | none => true) then none
    else if c.breakAhead 0 then
      let (chars, c) := c.takeBreak
      readBlockBreaks indent fuel longest (chars ++ breaks) c
    else some (longest, breaks, c)

/-- A block scalar as it is being read: its characters in reverse, the break behind its last line
and the breaks that follow it in reverse, and whether that line began with a blank. -/
structure Lines where
  taken : List Char
  last : List Char
  trailing : List Char
  indented : Bool
  deriving DecidableEq, Repr

/-- Reads the lines of a block scalar at its indentation. -/
def readLines (literal : Bool) (indent : Nat) : Nat → Lines → Cursor → Option (Lines × Cursor)
  | 0, _, _ => none
  | fuel + 1, l, c =>
    if c.column = indent ∧ ¬ c.atEnd then
      let blank := c.blankAhead 0
      let joint :=
        if !literal && l.last.head? == some '\n' && !l.indented && !blank then
          if l.trailing = [] then [' '] else l.trailing
        else l.trailing ++ l.last
      let text := c.run fun x => !isBreak x
      let (last, next) := (c.skip text.length).takeBreak
      match readBlockBreaks (some indent) (fuel + 1) 0 [] next with
      | none => none
      | some (_, trailing, next) =>
        readLines literal indent fuel
          ⟨text.reverse ++ (joint ++ l.taken), last, trailing, blank⟩ next
    else some (l, c)

/-- Reads a block scalar inside a block of the indentation given. -/
def readBlock? (literal : Bool) (indent : Int) (fuel : Nat) (c : Cursor) :
    Option (List Char × Cursor) := do
  let (header, c) ← readHeader? (c.skip 1)
  let c ← c.endLine?
  let least := (indent + 1).toNat
  let given := header.increment.map fun n => (max indent 0).toNat + n
  let (longest, breaks, c) ← readBlockBreaks given fuel 0 [] c
  let column := given.getD (max (max longest least) 1)
  let (l, c) ← readLines literal column fuel ⟨[], [], breaks, false⟩ c
  let tail :=
    match header.chomping with
    | .strip => []
    | .clip => l.last
    | .keep => l.trailing ++ l.last
  return ((tail ++ l.taken).reverse, c)

end ArmLink.Yaml
