import ArmLink.Fault.Messages
import ArmLink.Fault.Table

/-!
# Fault reports

A report lists the active faults joint by joint, each with its text where there
is one. As text, the faults of a joint stand indented under a line with its
number; a new line of that kind is written whenever the joint changes from one
fault to the next.
-/

namespace ArmLink.Fault

open ArmLink.Decimal (integerText natText)

/-- A fault of one joint. -/
structure Entry where
  /-- The joint, counted from one. -/
  joint : Nat
  id : Int
  description : Option String
  deriving DecidableEq, Repr

/-- The active faults, in the order they are reported. -/
abbrev Report := List Entry

namespace Report

/-- The report of a table, with the texts that are known. -/
def ofTable (describe : Int → Option String) (table : Table) : Report :=
  table.faults.flatMap fun (i, ids) => ids.map fun id => ⟨i + 1, id, describe id⟩

/-- The faults alone, without their texts. -/
def ids (report : Report) : List (Nat × Int) :=
  report.map fun fault => (fault.joint, fault.id)

def line (fault : Entry) : String :=
  "\t" ++ (match fault.description with
    | some text => text
    | none => "Unknown error id " ++ integerText fault.id) ++ "\n"

/-- The lines of a report below a line for the joint given, if any. -/
def linesUnder : Option Nat → Report → List String
  | _, [] => []
  | current, fault :: rest =>
    if current = some fault.joint then line fault :: linesUnder current rest
    else ("Joint" ++ natText fault.joint ++ ":\n") :: line fault
      :: linesUnder (some fault.joint) rest

def text (report : Report) : String :=
  String.join (linesUnder none report)

end Report

end ArmLink.Fault
