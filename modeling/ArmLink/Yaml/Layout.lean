import ArmLink.Yaml.Property
import ArmLink.Yaml.Scalar

/-!
# From layout to tokens

Two things about a text are not visible where they happen. A key is recognised
only at the colon behind it, so every place where a key may start is remembered
until it is clear whether one did; the key token, and the token that opens its
block, are put in front of what was read since. A block ends where a line begins
further to the left, so the columns of the open blocks are kept on a stack.

A key has to end on the line where it began and within 1024 bytes. A
remembered place that a block depends on and that turns out not to be a key is an
error.
-/

namespace ArmLink.Yaml

/-- A place where a key may have started. -/
structure Candidate where
  /-- Whether nothing else but a key may have started here. -/
  required : Bool
  /-- How many tokens come before it. -/
  number : Nat
  index : Nat
  line : Nat
  column : Nat
  deriving DecidableEq, Repr

/-- What has been read of a text. -/
structure Reading where
  cursor : Cursor
  /-- The tokens so far, the last one first. -/
  done : List Token
  /-- How many tokens there are. -/
  count : Nat
  /-- The column of the innermost open block, and -1 outside of all. -/
  indent : Int
  /-- The columns of the blocks around it. -/
  outer : List Int
  /-- Whether a key may start at the next token. -/
  keyAllowed : Bool
  /-- The candidate in the innermost block. -/
  blockKey : Option Candidate
  /-- The candidate in each open flow collection, the innermost first. -/
  flowKeys : List (Option Candidate)
  deriving Repr

namespace Reading

def start (cs : List Char) : Reading :=
  { cursor := .start cs, done := [], count := 0, indent := -1, outer := [], keyAllowed := true
    blockKey := none, flowKeys := [] }

/-- One more token, and the place behind it. -/
def emit (r : Reading) (token : Token) (cursor : Cursor) : Reading :=
  { r with done := token :: r.done, count := r.count + 1, cursor }

/-- A token put in front of the one with the number given. -/
def insert (r : Reading) (number : Nat) (token : Token) : Reading :=
  { r with done := r.done.insertIdx (r.count - number) token, count := r.count + 1 }

/-- Whether a key or its value may only stand on lines of their own. -/
def inBlock (r : Reading) : Bool := r.flowKeys.isEmpty

/-- The innermost candidate. -/
def candidate (r : Reading) : Option Candidate :=
  match r.flowKeys with
  | [] => r.blockKey
  | k :: _ => k

/-- Another innermost candidate. -/
def setCandidate (r : Reading) (k : Option Candidate) : Reading :=
  match r.flowKeys with
  | [] => { r with blockKey := k }
  | _ :: around => { r with flowKeys := k :: around }

/-- Forgets the innermost candidate. -/
def forget? (r : Reading) : Option Reading :=
  if r.candidate.any (·.required) then none else some (r.setCandidate none)

/-- Remembers this place as a candidate, if a key may start here. -/
def remember? (r : Reading) : Option Reading :=
  if r.keyAllowed then do
    let r ← r.forget?
    return r.setCandidate (some
      { required := r.inBlock && r.indent == (r.cursor.column : Int), number := r.count
        index := r.cursor.index, line := r.cursor.line, column := r.cursor.column })
  else some r

/-- A candidate that can still become a key; `none` if a required one cannot. -/
def fresh? (c : Cursor) : Option Candidate → Option (Option Candidate)
  | none => some none
  | some k =>
    if k.line < c.line ∨ k.index + 1024 < c.index then
      if k.required then none else some none
    else some (some k)

/-- Drops the candidates that can no longer become keys. Only a candidate in a block can be
required, and one further out in a flow collection is looked at again when the collections inside
are closed, so these two are enough. -/
def expire? (r : Reading) : Option Reading := do
  let blockKey ← fresh? r.cursor r.blockKey
  let r := { r with blockKey }
  return r.setCandidate (← fresh? r.cursor r.candidate)

/-- Opens a block at a column further to the right, in front of the token with the number given. -/
def openBlock (r : Reading) (column : Nat) (number : Nat) (token : Token) : Reading :=
  if r.inBlock && decide (r.indent < column) then
    { r.insert number token with indent := column, outer := r.indent :: r.outer }
  else r

/-- Closes the blocks that begin to the right of a column. -/
def closeBlocks (column : Int) : List Int → Reading → Reading
  | [], r => r
  | enclosing :: rest, r =>
    if column < r.indent then
      closeBlocks column rest
        { r with done := .blockEnd :: r.done, count := r.count + 1, indent := enclosing
                 outer := rest }
    else r

/-- Closes the blocks that begin to the right of a column; inside a flow collection there are
none. -/
def dedent (r : Reading) (column : Int) : Reading :=
  if r.inBlock then closeBlocks column r.outer r else r

/-- The place of the next token: behind the byte order mark, blanks, comments and line breaks. A tab
counts as a blank only where no key may start. -/
def gap : Nat → Reading → Reading
  | 0, r => r
  | fuel + 1, r =>
    let c := r.cursor.skipByteOrderMark
    let tabs := !r.inBlock || !r.keyAllowed
    let c := (c.skipWhile fun x => x == ' ' || (tabs && x == '\t')).skipComment
    if c.breakAhead 0 then
      gap fuel { r with cursor := c.takeBreak.2, keyAllowed := r.keyAllowed || r.inBlock }
    else { r with cursor := c }

/-- The end of the text closes every block. A flow collection that is still open keeps them. -/
def finish? (r : Reading) : Option Reading :=
  (r.dedent (-1)).forget?

def readMark? (r : Reading) (token : Token) : Option Reading := do
  let r ← (r.dedent (-1)).forget?
  return { r.emit token (r.cursor.skip 3) with keyAllowed := false }

def directive? (r : Reading) (fuel : Nat) : Option Reading := do
  let r ← (r.dedent (-1)).forget?
  let (token, c) ← readDirective? fuel r.cursor
  return { r.emit token c with keyAllowed := false }

def openFlow? (r : Reading) (token : Token) : Option Reading := do
  let r ← r.remember?
  return { r.emit token (r.cursor.skip 1) with
    flowKeys := none :: r.flowKeys, keyAllowed := true }

def closeFlow? (r : Reading) (token : Token) : Option Reading := do
  let r ← r.forget?
  return { r.emit token (r.cursor.skip 1) with
    flowKeys := r.flowKeys.drop 1, keyAllowed := false }

def comma? (r : Reading) : Option Reading := do
  let r ← r.forget?
  return { r.emit .flowEntry (r.cursor.skip 1) with keyAllowed := true }

/-- Reads the indicator of a sequence entry. -/
def entry? (r : Reading) : Option Reading := do
  if r.inBlock && !r.keyAllowed then none
  else
    let r ← (r.openBlock r.cursor.column r.count .blockSequence).forget?
    return { r.emit .blockEntry (r.cursor.skip 1) with keyAllowed := true }

/-- Reads the indicator of a key. -/
def key? (r : Reading) : Option Reading := do
  if r.inBlock && !r.keyAllowed then none
  else
    let r ← (r.openBlock r.cursor.column r.count .blockMapping).forget?
    return { r.emit .key (r.cursor.skip 1) with keyAllowed := r.inBlock }

/-- Reads the indicator of a value. When a candidate is open, what was read since is its key. -/
def value? (r : Reading) : Option Reading :=
  match r.candidate with
  | some k =>
    let r := (r.insert k.number .key).openBlock k.column k.number .blockMapping
    some { (r.setCandidate none).emit .value (r.cursor.skip 1) with keyAllowed := false }
  | none =>
    if r.inBlock && !r.keyAllowed then none
    else
      let r := r.openBlock r.cursor.column r.count .blockMapping
      some { r.emit .value (r.cursor.skip 1) with keyAllowed := r.inBlock }

def name? (r : Reading) (token : List Char → Token) : Option Reading := do
  let r ← r.remember?
  let (name, c) ← readName? r.cursor
  return { r.emit (token name) c with keyAllowed := false }

def tag? (r : Reading) (fuel : Nat) : Option Reading := do
  let r ← r.remember?
  let (token, c) ← readTag? (!r.inBlock) fuel r.cursor
  return { r.emit token c with keyAllowed := false }

def block? (r : Reading) (literal : Bool) (fuel : Nat) : Option Reading := do
  let r ← r.forget?
  let (text, c) ← readBlock? literal r.indent fuel r.cursor
  return { r.emit (.scalar (if literal then .literal else .folded) text) c with keyAllowed := true }

def quoted? (r : Reading) (single : Bool) (fuel : Nat) : Option Reading := do
  let r ← r.remember?
  let (text, c) ← readQuoted? single fuel r.cursor
  return { r.emit (.scalar .quoted text) c with keyAllowed := false }

/-- Reads a plain scalar. Behind one that ends in a line break, a key may start. -/
def plain? (r : Reading) (fuel : Nat) : Option Reading := do
  let r ← r.remember?
  let p ← readPlain? (!r.inBlock) r.indent fuel r.cursor
  return { r.emit (.scalar .plain p.taken) p.place with keyAllowed := p.broken }

/-- The characters that mean something at the start of a node. -/
def indicators : List Char :=
  ['-', '?', ':', ',', '[', ']', '\x7b', '\x7d', '#', '&', '*', '!', '|', '>', '\'', '"', '%', '@',
    '\x60']

/-- Whether a plain scalar may start at a place. -/
def plainStart (flow : Bool) (c : Cursor) : Bool :=
  match c.next with
  | none => false
  | some x =>
    (!(isBlank x || isBreak x) && !indicators.contains x)
      || (x == '-' && !c.blankAhead 1)
      || (!flow && (x == '?' || x == ':') && !c.gapAhead 1)

/-- Reads one token, and what has to be put in front of it. -/
def token? (r : Reading) (fuel : Nat) : Option Reading :=
  let c := r.cursor
  let flow := !r.inBlock
  if c.column == 0 && c.at? '%' then r.directive? fuel
  else if c.documentMark '-' then r.readMark? .documentStart
  else if c.documentMark '.' then r.readMark? .documentEnd
  else if c.at? '[' then r.openFlow? .flowSequence
  else if c.at? '\x7b' then r.openFlow? .flowMapping
  else if c.at? ']' then r.closeFlow? .flowSequenceEnd
  else if c.at? '\x7d' then r.closeFlow? .flowMappingEnd
  else if c.at? ',' then r.comma?
  else if c.at? '-' && c.gapAhead 1 then r.entry?
  else if c.at? '?' && (flow || c.gapAhead 1) then r.key?
  else if c.at? ':' && (flow || c.gapAhead 1) then r.value?
  else if c.at? '*' then r.name? .alias
  else if c.at? '&' then r.name? .anchor
  else if c.at? '!' then r.tag? fuel
  else if c.at? '|' && !flow then r.block? true fuel
  else if c.at? '>' && !flow then r.block? false fuel
  else if c.at? '\'' then r.quoted? true fuel
  else if c.at? '"' then r.quoted? false fuel
  else if plainStart flow c then r.plain? fuel
  else none

/-- Reads tokens up to the end of the text. Every token takes a character, so as many units of fuel
as there are characters are enough, and those that are left are enough for what is inside. -/
def readAll : Nat → Reading → Option Reading
  | 0, _ => none
  | fuel + 1, r => do
    let r ← (r.gap (fuel + 1)).expire?
    if r.cursor.atEnd then r.finish?
    else readAll fuel (← (r.dedent r.cursor.column).token? (fuel + 1))

end Reading

def tokens? (text : String) : Option (List Token) :=
  let cs := text.toList
  if cs.all isAllowed then
    (Reading.readAll (cs.length + 1) (.start cs)).map fun r => r.done.reverse
  else none

end ArmLink.Yaml
