import ArmLink.Decimal.Reading
import ArmLink.Failure
import ArmLink.Text.Blank

/-!
# Payloads

The payload of a reply is one of two shapes: numbers between commas, or lists of
integers in brackets. The lists stand one after the other with commas between
them, bare or inside one more pair of brackets. Blanks may stand around every
number, comma and bracket, and an empty payload holds nothing.

Brackets never nest deeper than that, so a single pass that knows where it stands
(before a list, inside one, after one, or behind the closing bracket of the
outer pair) recognises the second shape. Whether there is an outer pair shows in
its first two brackets.
-/

namespace ArmLink.Payload

open ArmLink.Decimal (int64 readFloatChars? readInteger)
open ArmLink.Text (isBlank trim)

def readNumber (token : List Char) : Except PayloadFault Float :=
  match readFloatChars? (trim token) with
  | some value => .ok value
  | none => .error (.notNumber (String.ofList (trim token)))

def readNumbers (payload : List Char) : Except PayloadFault (List Float) :=
  let body := trim payload
  if body = [] then .ok []
  else if '[' ∈ body ∨ ']' ∈ body then .error .nested
  else (body.splitOn ',').mapM readNumber

/-- Where a pass over lists in brackets stands. -/
inductive Place where
  /-- A list has to begin. -/
  | before
  /-- Inside a list, with its characters so far in reverse. -/
  | inside (taken : List Char)
  /-- Behind a list. -/
  | behind
  /-- Behind the closing bracket of the outer pair, where nothing may follow. -/
  | done
  deriving DecidableEq, Repr

/-- What a pass found: the insides of the lists, and whether a closing bracket was left over at the
end. -/
structure Groups where
  lists : List (List Char)
  closed : Bool
  deriving DecidableEq, Repr

def Groups.cons (list : List Char) (groups : Groups) : Groups :=
  { groups with lists := list :: groups.lists }

/-- Passes over lists in brackets with commas between them. -/
def scanGroups : Place → List Char → Option Groups
  | .before, [] => none
  | .inside _, [] => none
  | .behind, [] => some ⟨[], false⟩
  | .done, [] => some ⟨[], true⟩
  | .before, c :: cs =>
    if c = '[' then scanGroups (.inside []) cs
    else if isBlank c then scanGroups .before cs
    else none
  | .inside taken, c :: cs =>
    if c = '[' then none
    else if c = ']' then (scanGroups .behind cs).map (·.cons taken.reverse)
    else scanGroups (.inside (c :: taken)) cs
  | .behind, c :: cs =>
    if c = ',' then scanGroups .before cs
    else if c = ']' then scanGroups .done cs
    else if isBlank c then scanGroups .behind cs
    else none
  | .done, _ :: _ => none

/-- The text behind the opening bracket of an outer pair, if there is one: a bracket whose list
would begin with another. -/
def outer? : List Char → Option (List Char)
  | '[' :: cs => if (cs.dropWhile isBlank).head? = some '[' then some cs else none
  | _ => none

/-- Reads one integer of a list. -/
def readElement (token : List Char) : Except PayloadFault Int :=
  match readInteger int64 token with
  | .ok value => .ok value
  | .error _ => .error (.notInteger (String.ofList token))

/-- Reads the integers inside one pair of brackets; an empty place between commas is no integer. -/
def readList (inside : List Char) : Except PayloadFault (List Int) :=
  (((inside.splitOn ',').map trim).filter (· ≠ [])).mapM readElement

/-- Reads the insides of brackets one by one, of which there has to be one. -/
def readInsides (insides : List (List Char)) : Except PayloadFault (List (List Int)) := do
  let lists ← insides.mapM readList
  if lists = [] then .error .noLists else .ok lists

/-- Reads lists of integers in brackets. -/
def readLists (payload : List Char) : Except PayloadFault (List (List Int)) :=
  let body := trim payload
  if body = [] then .ok []
  else
    let inner := outer? body
    match scanGroups .before (inner.getD body) with
    | none => .error (.notGroups (String.ofList body))
    | some groups =>
      if inner.isSome = groups.closed then readInsides groups.lists
      else .error (.unbalanced (String.ofList body))

end ArmLink.Payload
