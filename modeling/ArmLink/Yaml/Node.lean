import ArmLink.Yaml.Layout
import Std.Data.HashMap

/-!
# Nodes

The nodes of a document, from its tokens. A value that is left out is an empty
plain scalar. An alias stands for an anchored node, which may be one that the
alias itself is part of, so a document is its root together with a table of
anchored nodes, and aliases are entries of that table.

An anchor is numbered by how many names are known when it is met. A name that is
used twice counts once, so two anchors can share a number; an alias then stands
for the one that began last.
-/

namespace ArmLink.Yaml

/-- A node. The tag of a scalar is kept; those of collections mean nothing here. -/
inductive Node where
  | scalar (style : Style) (tag : Option (List UInt8)) (text : List Char)
  | sequence (items : List Node)
  | mapping (pairs : List (Node × Node))
  | alias (id : Nat)
  deriving Repr

/-- A value that is left out. -/
def Node.absent : Node := .scalar .plain none []

/-- A name is hashed as the list of its characters. -/
local instance hashableName : Hashable (List Char) := @instHashableList Char instHashableChar

/-- The anchors of a document. -/
structure Anchors where
  /-- The number of each name. -/
  names : Std.HashMap (List Char) Nat
  /-- For each number, which anchored node began last under it. -/
  began : List (Nat × Nat)
  /-- How many anchored nodes have begun. -/
  count : Nat
  /-- The anchored nodes, in the order in which they began. -/
  nodes : List (Nat × Node)
  deriving Repr

namespace Anchors

def none : Anchors := ⟨∅, [], 0, []⟩

/-- An anchored node begins: its place among them, and the anchors with it. -/
def begin (a : Anchors) (name : List Char) : Nat × Anchors :=
  let id := a.names.size
  (a.count,
    { a with
      names := a.names.insert name id
      began := (id, a.count) :: a.began
      count := a.count + 1 })

/-- The node an alias stands for. -/
def node? (a : Anchors) (id : Nat) : Option Node :=
  (a.began.lookup id).bind fun place => a.nodes.lookup place

end Anchors

structure Document where
  root : Node
  anchors : Anchors
  deriving Repr

/-- What is left of the tokens, and the anchors so far. -/
structure Rest where
  tokens : List Token
  anchors : Anchors
  deriving Repr

/-- Reading nodes from tokens. -/
abbrev Grammar := StateT Rest Option

namespace Grammar

def next : Grammar (Option Token) := do return (← get).tokens.head?

def pass : Grammar Unit := modify fun r => { r with tokens := r.tokens.drop 1 }

/-- Whether the next token is one of these, or the end when `orEnd` is set. -/
def nextIn (tokens : List Token) (orEnd : Bool) : Grammar Bool := do
  match ← next with
  | some token => return tokens.contains token
  | none => return orEnd

/-- The handles that tags may use without a directive. -/
def standardHandles : List (List Char × List UInt8) :=
  [(['!'], asciiBytes ['!']), (['!', '!'], asciiBytes "tag:yaml.org,2002:".toList)]

def anchor : Grammar (Option (List Char)) := do
  match ← next with
  | some (.anchor name) =>
    pass
    return some name
  | _ => return none

/-- The tag in front of a node, with its handle resolved. -/
def tag (handles : List (List Char × List UInt8)) : Grammar (Option (List UInt8)) := do
  match ← next with
  | some (.tag handle rest) =>
    pass
    if handle = [] then return some rest
    else
      match handles.lookup handle with
      | some stem => return some (stem ++ rest)
      | none => failure
  | _ => return none

mutual

/-- Reads a node. `block` says whether block collections may begin here, `indentless` whether a
sequence may begin without being indented. -/
def node (handles : List (List Char × List UInt8)) (block indentless : Bool) :
    Nat → Grammar Node
  | 0 => failure
  | fuel + 1 => do
    match ← next with
    | some (.alias name) =>
      pass
      match (← get).anchors.names[name]? with
      | some id => return .alias id
      | none => failure
    | _ =>
      let early ← anchor
      let tagged ← tag handles
      let name ← if early.isSome then pure early else anchor
      match name with
      | none => content handles block indentless tagged.isSome tagged fuel
      | some name =>
        let r ← get
        let (place, anchors) := r.anchors.begin name
        set { r with anchors }
        let found ← content handles block indentless true tagged fuel
        modify fun r =>
          { r with anchors := { r.anchors with nodes := (place, found) :: r.anchors.nodes } }
        return found

/-- Reads a node behind its anchor and tag; with one of these it may be empty. -/
def content (handles : List (List Char × List UInt8)) (block indentless marked : Bool)
    (tag : Option (List UInt8)) : Nat → Grammar Node
  | 0 => failure
  | fuel + 1 => do
    match ← next with
    | some (.scalar style text) =>
      pass
      return .scalar style tag text
    | some .flowSequence =>
      pass
      return .sequence (← flowItems handles true fuel)
    | some .flowMapping =>
      pass
      return .mapping (← flowPairs handles true fuel)
    | some .blockEntry =>
      if indentless then return .sequence (← indentlessItems handles fuel)
      else if marked then return .scalar .plain tag []
      else failure
    | some .blockSequence =>
      if block then
        pass
        return .sequence (← blockItems handles fuel)
      else if marked then return .scalar .plain tag []
      else failure
    | some .blockMapping =>
      if block then
        pass
        return .mapping (← blockPairs handles fuel)
      else if marked then return .scalar .plain tag []
      else failure
    | _ => if marked then return .scalar .plain tag [] else failure

/-- Reads the items of a block sequence up to its end. -/
def blockItems (handles : List (List Char × List UInt8)) : Nat → Grammar (List Node)
  | 0 => failure
  | fuel + 1 => do
    match ← next with
    | some .blockEntry =>
      pass
      let item ←
        if ← nextIn [.blockEntry, .blockEnd] false then pure Node.absent
        else node handles true false fuel
      return item :: (← blockItems handles fuel)
    | some .blockEnd =>
      pass
      return []
    | _ => failure

/-- Reads the items of a sequence that is not indented, as far as they go. -/
def indentlessItems (handles : List (List Char × List UInt8)) : Nat → Grammar (List Node)
  | 0 => failure
  | fuel + 1 => do
    match ← next with
    | some .blockEntry =>
      pass
      let item ←
        if ← nextIn [.blockEntry, .key, .value, .blockEnd] false then pure Node.absent
        else node handles true false fuel
      return item :: (← indentlessItems handles fuel)
    | _ => return []

def blockPairs (handles : List (List Char × List UInt8)) : Nat → Grammar (List (Node × Node))
  | 0 => failure
  | fuel + 1 => do
    match ← next with
    | some .key =>
      pass
      let key ←
        if ← nextIn [.key, .value, .blockEnd] false then pure Node.absent
        else node handles true true fuel
      let value ←
        if ← nextIn [.value] false then do
          pass
          if ← nextIn [.key, .value, .blockEnd] false then pure Node.absent
          else node handles true true fuel
        else pure Node.absent
      return (key, value) :: (← blockPairs handles fuel)
    | some .blockEnd =>
      pass
      return []
    | _ => failure

/-- Reads the items of a flow sequence up to its end. An item with a key indicator is a mapping of
one pair; its key must not be left out. -/
def flowItems (handles : List (List Char × List UInt8)) (isFirst : Bool) :
    Nat → Grammar (List Node)
  | 0 => failure
  | fuel + 1 => do
    if ← nextIn [.flowSequenceEnd] false then
      pass
      return []
    else
      if !isFirst then
        if ← nextIn [.flowEntry] false then pass else failure
      if ← nextIn [.key] false then
        pass
        if ← nextIn [.value, .flowEntry, .flowSequenceEnd] false then
          pass
          let value ← flowValue handles .flowSequenceEnd fuel
          return .mapping [(Node.absent, value)] :: (← flowItems handles false fuel)
        else
          let key ← node handles false false fuel
          let value ← flowValue handles .flowSequenceEnd fuel
          return .mapping [(key, value)] :: (← flowItems handles false fuel)
      else if ← nextIn [.flowSequenceEnd] false then
        pass
        return []
      else
        let item ← node handles false false fuel
        return item :: (← flowItems handles false fuel)

/-- Reads the value of a pair in a flow collection, which may be left out. -/
def flowValue (handles : List (List Char × List UInt8)) (close : Token) : Nat → Grammar Node
  | 0 => failure
  | fuel + 1 => do
    if ← nextIn [.value] false then
      pass
      if ← nextIn [.flowEntry, close] false then return Node.absent
      else node handles false false fuel
    else return Node.absent

def flowPairs (handles : List (List Char × List UInt8)) (isFirst : Bool) :
    Nat → Grammar (List (Node × Node))
  | 0 => failure
  | fuel + 1 => do
    if ← nextIn [.flowMappingEnd] false then
      pass
      return []
    else
      if !isFirst then
        if ← nextIn [.flowEntry] false then pass else failure
      if ← nextIn [.key] false then
        pass
        let key ←
          if ← nextIn [.value, .flowEntry, .flowMappingEnd] false then pure Node.absent
          else node handles false false fuel
        let value ← flowValue handles .flowMappingEnd fuel
        return (key, value) :: (← flowPairs handles false fuel)
      else if ← nextIn [.flowMappingEnd] false then
        pass
        return []
      else
        let key ← node handles false false fuel
        return (key, Node.absent) :: (← flowPairs handles false fuel)

end

/-- Reads the directives in front of a document: at most one version, which has to be one that is
understood, and handles, each at most once. -/
def directives : Nat → Bool → List (List Char × List UInt8) →
    Grammar (List (List Char × List UInt8))
  | 0, _, _ => failure
  | fuel + 1, versioned, handles => do
    match ← next with
    | some (.version major minor) =>
      if versioned || major != 1 || !(minor == 1 || minor == 2) then failure
      else
        pass
        directives fuel true handles
    | some (.handle name stem) =>
      if handles.any fun (other, _) => other = name then failure
      else
        pass
        directives fuel versioned ((name, stem) :: handles)
    | _ => return handles

def passEnds : Nat → Grammar Unit
  | 0 => return
  | fuel + 1 => do
    if ← nextIn [.documentEnd] false then
      pass
      passEnds fuel

/-- Reads the one document of a text. -/
def document (fuel : Nat) : Grammar Node := do
  let explicit :=
    match ← next with
    | some (.version ..) | some (.handle ..) | some .documentStart => true
    | _ => false
  let root ←
    if explicit then do
      let handles ← directives fuel false []
      if ← nextIn [.documentStart] false then pass else failure
      let empty :=
        match ← next with
        | some (.version ..) | some (.handle ..) | some .documentStart | some .documentEnd => true
        | none => true
        | _ => false
      if empty then pure Node.absent else node (handles ++ standardHandles) true false fuel
    else node standardHandles true false fuel
  passEnds fuel
  if (← get).tokens = [] then return root else failure

end Grammar

/-- Reads a text that holds one document. Every token and every level costs at most two units of
fuel. -/
def Document.ofText? (text : String) : Option Document := do
  let tokens ← tokens? text
  let (root, rest) ← (Grammar.document (2 * tokens.length + 4)).run ⟨tokens, .none⟩
  return ⟨root, rest.anchors⟩

end ArmLink.Yaml
