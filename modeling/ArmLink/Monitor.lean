import ArmLink.Record.Telemetry

/-!
# What is worth reporting

A monitor remembers what it last let through and decides about the next event of
each kind. Samples of the joints come at most at the configured rate; when only
changes are reported, a sample has to differ from the last one that was let
through in some coordinate by more than a threshold. Comparing with the last
*reported* sample is what keeps a slow drift from going unnoticed. Modes and
faults are never held back for their rate.

A monitor is told the time, in milliseconds.
-/

namespace ArmLink

open ArmLink.Record (Sample)
open ArmLink.Robot (Mode)

/-- What a monitor remembers. -/
structure Monitor where
  /-- The least time between two samples that are let through. -/
  interval : Nat
  changesOnly : Bool
  decimals : Nat
  /-- The last sample that was let through. -/
  sample : Option Sample
  /-- When it was. -/
  sampled : Option Nat
  mode : Option Mode
  /-- The joint and number of every fault last reported. -/
  faults : Option (List (Nat × Int))
  deriving DecidableEq, Repr

namespace Monitor

/-- A coordinate that moved by more than this, in meters or radians, has changed. -/
def threshold : Float := 0.001

/-- A monitor that has seen nothing. A rate of zero counts as one sample a second. -/
def new (rate : Nat) (changesOnly : Bool) (decimals : Nat) : Monitor :=
  { interval := 1000 / max rate 1, changesOnly, decimals, sample := none, sampled := none
    mode := none, faults := none }

/-- The monitor of a daemon that samples with the period given, in milliseconds. -/
def forPeriod (period : Nat) (changesOnly : Bool) (decimals : Nat) : Monitor :=
  new (1000 / max period 1) changesOnly decimals

/-- Whether two numbers differ by more than the threshold. -/
def differ (a b : Float) : Bool :=
  threshold < (a - b).abs

/-- Whether a sample differs from an earlier one. -/
def moved (earlier later : Sample) : Bool :=
  (earlier.coordinates.zip later.coordinates).any fun (a, b) => differ a b

/-- Whether a sample at this time comes too soon after the last one. -/
def tooSoon (m : Monitor) (now : Nat) : Bool :=
  m.sampled.any fun last => now - last < m.interval

def unchanged (m : Monitor) (s : Sample) : Bool :=
  m.changesOnly && m.sample.any fun last => !moved last s

def admitSample (m : Monitor) (now : Nat) (s : Sample) : Bool × Monitor :=
  if m.tooSoon now || m.unchanged s then (false, m)
  else (true, { m with sample := some s, sampled := some now })

def admitMode (m : Monitor) (mode : Mode) : Bool × Monitor :=
  if m.changesOnly && m.mode == some mode then (false, m)
  else (true, { m with mode := some mode })

/-- Whether a fault report is let through. No faults at all are worth reporting only after some. -/
def admitFaults (m : Monitor) (report : Fault.Report) : Bool × Monitor :=
  let ids := Fault.Report.ids report
  match m.faults with
  | some last => if m.changesOnly && last == ids then (false, m)
    else (true, { m with faults := some ids })
  | none => (!ids.isEmpty, { m with faults := some ids })

def sampleLine (m : Monitor) (time : Float) (s : Sample) : String :=
  Record.jointLine m.decimals time (s.rounded m.decimals)

end Monitor

end ArmLink
