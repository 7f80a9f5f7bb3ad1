import ArmLink.Bench
import ArmLink.Command
import ArmLink.Reply

/-!
# One exchange on the dashboard

A command is sent and its reply is awaited: bytes are read until the terminator
of a reply has come, and what stands behind it in the same piece is dropped. When
it does not come in time the link is taken down, because a reply that came later
would be read as the answer to the next command. A reply that says no, or one
that cannot be understood, leaves the link up.
-/

namespace ArmLink.Dashboard

open ArmLink.Text (Utf8.decodeLossy)

/-- The most bytes that are read in one piece. -/
def pieceSize : Nat := 1024

/-- The text up to and with the first terminator, if there is one. -/
def throughTerminator? (text : List Char) : Option (List Char) :=
  if Reply.terminator ∈ text then some (text.takeWhile (· ≠ Reply.terminator) ++ [Reply.terminator])
  else none

/-- No complete reply came: the link is taken down. -/
def giveUp (command : String) (limit : Nat) (got : List Char) (link : Link) :
    Except Failure String × Link :=
  (.error (.connection (.silent command limit (String.ofList got))), link.close)

def readReplyFrom (command : String) (limit : Nat) :
    Nat → List Char → Link → Except Failure String × Link
  | 0, got, link => giveUp command limit got link
  | fuel + 1, got, link =>
    match link.receive pieceSize with
    | (.data bytes, next) =>
      let text := got ++ (Utf8.decodeLossy bytes).toList
      match throughTerminator? text with
      | some reply => (.ok (String.ofList reply), next)
      | none => readReplyFrom command limit fuel text next
    | (.failed failure, next) => (.error failure, next)
    | (.quiet, next) => giveUp command limit got next
    | (.waiting, next) => giveUp command limit got next

/-- Reads the reply to a command within a limit in milliseconds. One receive more than the inbox can
feed finds that nothing is left. -/
def readReply (command : String) (limit : Nat) (link : Link) : Except Failure String × Link :=
  if limit = 0 then giveUp command limit [] link
  else readReplyFrom command limit (link.load + 1) [] link

/-- The reply of a line, unless it says no. -/
def accept (command : String) (line : String) : Except Failure Reply := do
  let reply ← Reply.parse line
  if reply.accepted then .ok reply else .error (.rejected reply.status command)

def call (limit : Nat) (command : Command) (b : Bench) : Except Failure Reply × Bench :=
  match command.check with
  | .error failure => (.error failure, b)
  | .ok () =>
    match b.sendDashboard command.text with
    | (.error failure, b) => (.error failure, b)
    | (.ok (), b) =>
      match readReply command.text limit b.dashboard with
      | (.error failure, dashboard) => (.error failure, { b with dashboard })
      | (.ok line, dashboard) => (accept command.text line, { b with dashboard })

/-- Opens the dashboard link. A dial that stays unanswered counts as interrupted. -/
def connect (b : Bench) : Except Failure Unit × Bench :=
  match b.dashboard.dial with
  | (.connected, dashboard) => (.ok (), { b with dashboard })
  | (.failed failure, dashboard) => (.error failure, { b with dashboard })
  | (.waiting, dashboard) => (.error (Link.fault "interrupted"), { b with dashboard })

def disconnect (b : Bench) : Bench :=
  { b with dashboard := b.dashboard.close }

end ArmLink.Dashboard
