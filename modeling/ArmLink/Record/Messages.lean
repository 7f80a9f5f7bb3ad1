import ArmLink.Fault.Messages
import ArmLink.File
import ArmLink.Json.Document

/-!
# Message tables

The texts of the fault numbers are stored as a JSON array of records. Each has a
number under `id` and, under `en`, a record with the text as `description`; other
members, such as texts in other languages, are passed over.
-/

namespace ArmLink.Record

open ArmLink.Fault (Messages)
open ArmLink.Json (Document)

/-- Reads one entry of a table. -/
def readMessage? (entry : Document) : Option (Int × String) := do
  let (id, localized) ← entry.pair? "id" "en"
  let id ← id.integer?
  let description ← localized.single? "description"
  return (id, ← description.string?)

def readMessages (text : String) : Except Failure Messages :=
  match Document.ofText? text with
  | some (.array entries) =>
    match entries.mapM readMessage? with
    | some entries => .ok (.ofList entries)
    | none => .error .json
  | _ => .error .json

/-- Reads the table in a file. -/
def loadMessages (path : String) (contents : FileContents) : Except Failure Messages :=
  match contents.text with
  | .ok text => readMessages text
  | .error cause => .error (.config (.unreadableTable path cause))

end ArmLink.Record
