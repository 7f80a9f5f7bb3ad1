import ArmLink.Failure

/-!
# Fault messages

The text for each fault number. Entries are kept with the latest first, so a
number that is given twice has the text that was given last.
-/

namespace ArmLink.Fault

/-- Texts by fault number, the latest entry first. -/
structure Messages where
  entries : List (Int × String)
  deriving DecidableEq, Repr

namespace Messages

/-- The messages of entries in the order they were given. -/
def ofList (entries : List (Int × String)) : Messages :=
  ⟨entries.reverse⟩

def text? (messages : Messages) (id : Int) : Option String :=
  messages.entries.lookup id

/-- The text of a fault number, or that there is none. -/
def lookup (messages : Messages) (id : Int) : Except Failure String :=
  match messages.text? id with
  | some text => .ok text
  | none => .error (.unknownFault id)

def size (messages : Messages) : Nat :=
  (messages.entries.map Prod.fst).eraseDups.length

def isEmpty (messages : Messages) : Bool :=
  messages.entries.isEmpty

end Messages

end ArmLink.Fault
