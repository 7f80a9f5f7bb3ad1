import ArmLink.Decimal.Integer
import ArmLink.Yaml.Node

/-!
# Fields of a document

What a program asks of a document: records with known fields, texts, natural
numbers, switches, and values that may be left out. Any scalar is a text, however
it is written and tagged; a number or a switch has to be plain, or a literal block
that is tagged as one. Fields that are not known are passed over, but a known
field must not be given twice.
-/

namespace ArmLink.Yaml

open ArmLink.Text (hexValue?)

/-- The full form of a standard tag. -/
def standardTag (name : String) : List UInt8 :=
  asciiBytes ("tag:yaml.org,2002:" ++ name).toList

namespace Document

/-- A node, or the one it is an alias of. -/
def resolve? (d : Document) : Node → Option Node
  | .alias id => d.anchors.node? id
  | node => some node

def text? (d : Document) (node : Node) : Option String := do
  match ← d.resolve? node with
  | .scalar _ _ text => return String.ofList text
  | _ => none

/-- The text of a scalar that is plain, or a literal block with this standard tag. -/
def word? (d : Document) (tagged : String) (node : Node) : Option (List Char) := do
  match ← d.resolve? node with
  | .scalar .plain _ text => return text
  | .scalar .literal tag text => if tag = some (standardTag tagged) then return text else none
  | _ => none

/-- The value of a record field that is given, if it is. -/
def field? (fields : List (String × Node)) (name : String) : Option Node :=
  fields.lookup name

/-- The pairs of a mapping with their keys as text; nothing at all counts as a mapping without
pairs. -/
def pairs? (d : Document) (node : Node) : Option (List (String × Node)) := do
  match ← d.resolve? node with
  | .mapping pairs => pairs.mapM fun (key, value) => do return (← d.text? key, value)
  | .scalar .plain _ [] => return []
  | _ => none

/-- The pairs of a record with the known fields given. -/
def record? (d : Document) (known : List String) (node : Node) : Option (List (String × Node)) := do
  let pairs ← d.pairs? node
  let names := (pairs.map Prod.fst).filter known.contains
  if names = names.eraseDups then return pairs else none

/-- Reads a field, which has a value of its own when it is left out. -/
def reading? {α : Type} (fields : List (String × Node)) (name : String) (otherwise : α)
    (read : Node → Option α) : Option α :=
  match field? fields name with
  | some node => read node
  | none => some otherwise

end Document

/-- The digits of a number in a base: each below it, and at least one. -/
def readBase? (base : Nat) (cs : List Char) : Option Nat :=
  if cs = [] then none
  else cs.foldlM (fun n c => do
    let d ← hexValue? c
    if d < base then some (base * n + d) else none) 0

/-- Reads a natural number. It is decimal, without leading zeros, or has its base in front. A plus
sign may come first. -/
def readNatural? (cs : List Char) : Option Nat :=
  let body :=
    match cs with
    | '+' :: rest => rest
    | cs => cs
  match body with
  | '0' :: 'x' :: rest => readBase? 16 rest
  | '0' :: 'o' :: rest => readBase? 8 rest
  | '0' :: 'b' :: rest => readBase? 2 rest
  | ['0'] => some 0
  | '0' :: _ => none
  | _ => readBase? 10 body

namespace Document

def natural? (d : Document) (bound : Nat) (node : Node) : Option Nat := do
  let n ← readNatural? (← d.word? "int" node)
  if n < bound then return n else none

def switch? (d : Document) (node : Node) : Option Bool := do
  let word := String.ofList (← d.word? "bool" node)
  if ["true", "True", "TRUE"].contains word then return true
  else if ["false", "False", "FALSE"].contains word then return false
  else none

/-- Whether a plain text means that there is nothing. -/
def isNull (text : List Char) : Bool :=
  ["null", "Null", "NULL", "~"].contains (String.ofList text)

/-- A text that may be left out, or be given as nothing. A plain scalar with a tag is a text, unless
the tag says that it is nothing. -/
def optionalText? (d : Document) (node : Node) : Option (Option String) := do
  match ← d.resolve? node with
  | .scalar .plain none text =>
    return if text = [] || isNull text then none else some (String.ofList text)
  | .scalar .plain (some tag) text =>
    if tag = standardTag "null" then (if isNull text then return none else none)
    else return some (String.ofList text)
  | node => return some (← d.text? node)

end Document

end ArmLink.Yaml
