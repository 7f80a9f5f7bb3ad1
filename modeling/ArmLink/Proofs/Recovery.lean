import ArmLink.Proofs.Shutdown

/-!
# Coming back

Whatever an arm has been through, once it is shut down it can be activated again
as if nothing had been. `Away` lists what a shutdown leaves behind; a status of
`fatal` and a notice may be among it, and they do not matter, because no worker is
in place and the next start clears both.

From there on nothing can go wrong as long as every dial is accepted, no telemetry
comes and no receive times out. `Rising` is the invariant of that time. It counts the
steps that each of the two workers still has to take, five for the reader and three
for the keeper, and each step takes one off. A step of one worker never concerns the
other, so the order does not matter, and at zero both stay where they are: the
reader waits for a frame and the keeper goes its rounds. The waits of an activation
leave the workers more steps than that.
-/

namespace ArmLink

open ArmLink.Motion (Keeper)
open ArmLink.Telemetry (Feed Phase Reader Status)

/-- Every further dial is accepted. -/
structure Link.Willing (link : Link) : Prop where
  dials : ∀ dial ∈ link.dials, dial = .accepted
  fallback : link.fallback = .accept

/-- A link behind a dial that was accepted. -/
def Link.opened (link : Link) : Link :=
  { link with up := true, dials := link.dials.tail, tries := link.tries + 1 }

theorem Link.Willing.dial {link : Link} (h : link.Willing) :
    link.dial = (.connected, link.opened) := by
  rw [Link.dial, opened]
  cases hdials : link.dials with
  | nil => simp [h.fallback]
  | cons dial rest =>
      obtain rfl : dial = .accepted := h.dials dial (by rw [hdials]; exact List.mem_cons_self)
      rfl

theorem Link.Willing.opened {link : Link} (h : link.Willing) : link.opened.Willing :=
  ⟨fun dial hdial => h.dials dial (List.mem_of_mem_tail hdial), h.fallback⟩

/-- A reader in the phase has so many steps left to the first block, given its link and its
status. -/
def Telemetry.Phase.Rises (left : Nat) (up : Bool) (status : Status) : Phase → Prop
  | .looking => left = 5 ∧ up = false
  | .probing => left = 4 ∧ up = false
  | .announcing => left = 3 ∧ up = false
  | .dialing => left = 2 ∧ up = false
  | .connected => left = 1 ∧ up = true
  | .gathering got => left = 0 ∧ up = true ∧ status = .streaming ∧ got = []
  | _ => False

/-- A keeper has so many steps left until its link is up. -/
def Motion.Keeper.Rises (left : Nat) (up : Bool) : Keeper → Prop
  | .looking => left = if up then 0 else 3
  | .probing => left = if up then 0 else 2
  | .dialing => left = if up then 0 else 1
  | .resting _ => left = 0 ∧ up = true
  | .finished => False

def Turn.isRead : Turn → Bool
  | read => true
  | _ => false

def Turn.isKeep : Turn → Bool
  | keep => true
  | _ => false

namespace Arm

/-- Nothing is at work, and nothing is open. -/
structure Away (a : Arm) : Prop where
  reader : a.reader = none
  keeper : a.keeper = none
  running : a.feed.running = false
  keeping : a.keeping = false
  status : a.feed.status = .fatal ∨ a.feed.status = .disconnected
  down : ∀ port, (a.bench.link port).up = false

/-- An arm on its way up, with the steps that its reader and its keeper have left. -/
structure Rising (a : Arm) (reads keeps : Nat) : Prop where
  receive : a.config.patience.receive ≠ 0
  trials : a.config.patience.trials ≠ 0
  running : a.feed.running = true
  calm : a.feed.status ≠ .fatal
  silent : a.feed.notice = none
  realtime : a.bench.realtime.Willing
  empty : a.bench.realtime.inbox = []
  patient : a.bench.realtime.patient = true
  motion : a.bench.motion.Willing
  dashboard : a.bench.dashboard.up = true
  keeping : a.keeping = true
  reader : ∃ phase, a.reader = some ⟨0, phase⟩ ∧
    phase.Rises reads a.bench.realtime.up a.feed.status
  keeper : ∃ k, a.keeper = some k ∧ k.Rises keeps a.bench.motion.up

/-- Everything is open, both workers are at work, and no notice lies there. -/
structure Working (a : Arm) : Prop where
  well : a.isWell = true
  status : a.feed.status = .streaming
  running : a.feed.running = true
  keeping : a.keeping = true
  reader : ∃ r, a.reader = some r ∧ r.phase ≠ .finished
  keeper : ∃ k, a.keeper = some k ∧ k ≠ .finished
  notice : a.takeNotice.1 = none

section

variable {a : Arm} {reads keeps : Nat}

theorem turn_read_of_step {r r' : Reader} {feed : Feed} {link : Link} (hr : a.reader = some r)
    (h : r.step a.config.patience a.clock a.feed a.bench.realtime = some (r', feed, link)) :
    a.turn .read =
      { a with reader := some r', feed, bench := { a.bench with realtime := link } } := by
  simp [turn, stepReader, hr, h]

theorem turn_keep_of_step {k k' : Keeper} {link : Link} (hk : a.keeper = some k)
    (h : k.step a.config.patience a.clock a.keeping a.bench.motion = some (k', link)) :
    a.turn .keep = { a with keeper := some k', bench := { a.bench with motion := link } } := by
  simp [turn, stepKeeper, hk, h]

/-- A reader that has steps left takes one; one that has none waits for a frame. -/
theorem Rising.read (h : a.Rising reads keeps) : (a.turn .read).Rising (reads - 1) keeps := by
  obtain ⟨phase, hr, hphase⟩ := h.reader
  cases phase with
  | looking =>
      obtain ⟨rfl, hup⟩ := hphase
      have htrials : ¬ a.config.patience.trials ≤ 0 := by
        have := h.trials
        omega
      rw [turn_read_of_step hr (by
        simp [Reader.step, Reader.go, h.running, htrials]
        exact ⟨rfl, rfl, rfl⟩)]
      exact { h with reader := ⟨.probing, rfl, rfl, hup⟩ }
  | probing =>
      obtain ⟨rfl, hup⟩ := hphase
      rw [turn_read_of_step hr (by simp [Reader.step, Reader.go, hup]; exact ⟨rfl, rfl, rfl⟩)]
      exact { h with reader := ⟨.announcing, rfl, rfl, hup⟩ }
  | announcing =>
      obtain ⟨rfl, hup⟩ := hphase
      rw [turn_read_of_step hr rfl]
      exact { h with calm := (by simp), reader := ⟨.dialing, rfl, rfl, hup⟩ }
  | dialing =>
      obtain ⟨rfl, -⟩ := hphase
      rw [turn_read_of_step hr (by simp [Reader.step, h.realtime.dial]; exact ⟨rfl, rfl, rfl⟩)]
      exact { h with realtime := h.realtime.opened, reader := ⟨.connected, rfl, rfl, rfl⟩ }
  | connected =>
      obtain ⟨rfl, hup⟩ := hphase
      rw [turn_read_of_step hr rfl]
      exact { h with calm := (by simp), reader := ⟨.gathering [], rfl, rfl, hup, rfl, rfl⟩ }
  | gathering got =>
      obtain ⟨rfl, hup, hstatus, rfl⟩ := hphase
      -- The link is up and nothing has come: the receive waits, and the reader with it.
      have hwaits : a.bench.realtime.receive Telemetry.frameSize =
          (.waiting, a.bench.realtime) := by
        simp [Link.receive, hup, h.empty, h.patient]
      have hstuck : a.stepReader = none := by
        have hroom : ¬ Telemetry.frameSize ≤ 0 := by decide
        simp [stepReader, hr, Reader.step, h.receive, hroom, hwaits]
      rw [turn, hstuck]
      exact h
  | _ => exact hphase.elim

/-- A keeper that has steps left takes one; one that has none leaves the link up. -/
theorem Rising.keep (h : a.Rising reads keeps) : (a.turn .keep).Rising reads (keeps - 1) := by
  obtain ⟨k, hk, hleft⟩ := h.keeper
  cases k with
  | looking =>
      rw [turn_keep_of_step hk (by simp [Keeper.step, h.keeping]; exact ⟨rfl, rfl⟩)]
      refine { h with keeper := ⟨.probing, rfl, ?_⟩ }
      show keeps - 1 = if a.bench.motion.up = true then 0 else 2
      rw [hleft]
      split <;> rfl
  | probing =>
      cases hup : a.bench.motion.up with
      | true =>
          rw [turn_keep_of_step hk (by simp [Keeper.step, hup]; exact ⟨rfl, rfl⟩)]
          refine { h with keeper := ⟨.resting _, rfl, ?_, hup⟩ }
          rw [hleft, hup]
          rfl
      | false =>
          rw [turn_keep_of_step hk (by simp [Keeper.step, hup]; exact ⟨rfl, rfl⟩)]
          refine { h with keeper := ⟨.dialing, rfl, ?_⟩ }
          show keeps - 1 = if a.bench.motion.up = true then 0 else 1
          rw [hleft, hup]
          rfl
  | dialing =>
      rw [turn_keep_of_step hk (by simp [Keeper.step, h.motion.dial]; exact ⟨rfl, rfl⟩)]
      refine { h with motion := h.motion.opened, keeper := ⟨.resting _, rfl, ?_, rfl⟩ }
      rw [hleft]
      split <;> rfl
  | resting wake =>
      obtain ⟨rfl, hup⟩ := hleft
      by_cases hwake : a.clock < wake
      · have hstuck : a.stepKeeper = none := by
          simp [stepKeeper, hk, Keeper.step, h.keeping, hwake]
        rw [turn, hstuck]
        exact h
      · rw [turn_keep_of_step hk (by simp [Keeper.step, hwake]; exact ⟨rfl, rfl⟩)]
        exact { h with keeper := ⟨.looking, rfl, by rw [Keeper.Rises, hup]; rfl⟩ }
  | finished => exact hleft.elim

theorem Rising.pass (h : a.Rising reads keeps) (milliseconds : Nat) :
    (a.turn (.pass milliseconds)).Rising reads keeps :=
  { h with }

/-- However the turns of the workers come, every one of them counts. -/
theorem Rising.course (h : a.Rising reads keeps) {turns : List Turn}
    (hturns : ∀ t ∈ turns, t.isBackground = true) :
    (a.course turns).Rising (reads - turns.countP Turn.isRead)
      (keeps - turns.countP Turn.isKeep) := by
  induction turns generalizing a reads keeps with
  | nil => exact h
  | cons t rest ih =>
      have hrest : ∀ t ∈ rest, t.isBackground = true :=
        fun u hu => hturns u (List.mem_cons_of_mem t hu)
      rw [List.countP_cons, List.countP_cons]
      cases t with
      | read =>
          rw [Nat.add_comm, ← Nat.sub_sub]
          exact ih h.read hrest
      | keep =>
          rw [Nat.add_comm (rest.countP Turn.isKeep), ← Nat.sub_sub keeps]
          exact ih h.keep hrest
      | pass milliseconds => exact ih (h.pass milliseconds) hrest
      | _ =>
          have hbackground := hturns _ List.mem_cons_self
          cases hbackground

theorem Rising.working (h : a.Rising 0 0) : a.Working := by
  obtain ⟨phase, hr, hphase⟩ := h.reader
  obtain ⟨k, hk, hleft⟩ := h.keeper
  have hmotion : a.bench.motion.up = true := by
    cases k with
    | resting => exact hleft.2
    | finished => exact hleft.elim
    | _ =>
        simp only [Keeper.Rises] at hleft
        split at hleft
        · assumption
        · cases hleft
  cases phase with
  | gathering got =>
      obtain ⟨-, hup, hstatus, rfl⟩ := hphase
      have hfatal : a.isFatal = false := beq_false_of_ne h.calm
      refine ⟨?_, hstatus, h.running, h.keeping, ⟨_, hr, (by simp)⟩, ⟨k, hk, ?_⟩, h.silent⟩
      · rw [isWell, h.dashboard, hmotion, hup, hfatal]
        rfl
      · rintro rfl
        exact hleft
  | looking | probing | announcing | dialing | connected => cases hphase.1
  | _ => exact hphase.elim

theorem Rising.leads {b : Arm} (h : a.Rising reads keeps) (hab : Leads Turn.isBackground a b) :
    ∃ reads' keeps', reads' ≤ reads ∧ keeps' ≤ keeps ∧ b.Rising reads' keeps' := by
  obtain ⟨turns, hturns, rfl⟩ := hab
  exact ⟨_, _, Nat.sub_le _ _, Nat.sub_le _ _, h.course hturns⟩

theorem Rising.readAll (h : a.Rising reads keeps) (fuel : Nat) :
    (exhaust stepReader fuel a).Rising (reads - fuel) keeps := by
  rw [exhaust_eq_course (t := .read) (fun _ => rfl)]
  induction fuel generalizing a reads with
  | zero => exact h
  | succ fuel ih =>
      rw [show reads - (fuel + 1) = reads - 1 - fuel by omega]
      exact ih h.read

theorem Rising.keepAll (h : a.Rising reads keeps) (fuel : Nat) :
    (exhaust stepKeeper fuel a).Rising reads (keeps - fuel) := by
  rw [exhaust_eq_course (t := .keep) (fun _ => rfl)]
  induction fuel generalizing a keeps with
  | zero => exact h
  | succ fuel ih =>
      rw [show keeps - (fuel + 1) = keeps - 1 - fuel by omega]
      exact ih h.keep

/-- When the background works, both workers have all the steps they need. -/
theorem Rising.run (h : a.Rising reads keeps) (hreads : reads ≤ 5) (hkeeps : keeps ≤ 3) :
    a.run.Rising 0 0 := by
  have hfuel : reads ≤ a.readerFuel := by
    have hload : 2 ≤ a.bench.realtime.load + a.bench.realtime.dials.length + 2 :=
      Nat.le_add_left 2 _
    have hmul := Nat.mul_le_mul hload (Nat.le_add_left 2 a.config.patience.trials)
    show reads ≤ 16 * _
    omega
  have hread : a.runReader.Rising 0 keeps := by
    have hreads := h.readAll a.readerFuel
    rw [Nat.sub_eq_zero_of_le hfuel] at hreads
    exact hreads
  have hkeep := hread.keepAll 16
  rw [Nat.sub_eq_zero_of_le (by omega)] at hkeep
  exact hkeep

theorem Rising.passed (h : a.Rising reads keeps) (hreads : reads ≤ 5) (hkeeps : keeps ≤ 3)
    (milliseconds : Nat) : (a.pass milliseconds).Rising 0 0 := by
  obtain ⟨hwork, hle⟩ := leads_workUntil (a.clock + milliseconds) (milliseconds + 1) (a := a)
    (Nat.le_add_right _ _)
  obtain ⟨reads', keeps', hreads', hkeeps', hb⟩ := h.leads (hwork.trans (leads_clock _ hle))
  exact hb.run (by omega) (by omega)

end

/-- Nothing stands in the way of the arm: every dial will be accepted, nothing has arrived on the
realtime link, where a receive waits, and no limit is zero. -/
structure Welcome (a : Arm) : Prop where
  dials : ∀ port, (a.bench.link port).Willing
  empty : a.bench.realtime.inbox = []
  patient : a.bench.realtime.patient = true
  connect : a.config.patience.connect ≠ 0
  receive : a.config.patience.receive ≠ 0
  trials : a.config.patience.trials ≠ 0

/-- The arm as activation begins to wait for its links. -/
def begun (a : Arm) : Arm :=
  (a.onBench Dashboard.connect).2.startKeeper.startReader

/-- The arm, but for how often its links were taken down. -/
def uncounted (a : Arm) : Arm :=
  let bench := a.bench
  { a with
    bench := { bench with
      dashboard := { bench.dashboard with cuts := 0 }
      motion := { bench.motion with cuts := 0 }
      realtime := { bench.realtime with cuts := 0 } } }

/-! ## What a shutdown leaves behind -/

theorem exhaust_of_stuck {step : Arm → Option Arm} {a : Arm} (h : step a = none) (fuel : Nat) :
    exhaust step fuel a = a := by
  cases fuel with
  | zero => rfl
  | succ fuel => rw [exhaust, h]

/-- `deactivate` brings everything about that a shutdown brings about, whether its workers have
ended or not. -/
theorem done_deactivate (a : Arm) : Stage.returned.Done a.deactivate := by
  have hbegin : Stage.lowerReader.Done a := fun _ hearlier => absurd hearlier (Nat.not_lt_zero _)
  have hstopping : Stage.joinReader.Done a.stopping :=
    hbegin.next.next.handsOff (leads_runReader rfl _).handsOff
  have hreader : Stage.lowerKeeper.Done a.stopReader := hstopping.next.next.next
  have hhalting : Stage.joinKeeper.Done a.stopReader.halting :=
    hreader.next.handsOff
      (leads_exhaust (k := Turn.isHandsOff) (t := .keep) (fun _ => rfl) rfl 16 _).handsOff
  exact hhalting.next.next.next

theorem Closing.done_run {c : Closing} (h : c.stage.Done c.arm) (strokes : List Stroke) :
    (c.run strokes).stage.Done (c.run strokes).arm := by
  induction strokes generalizing c with
  | nil => exact h
  | cons s rest ih =>
      refine ih (c := c.apply s) ?_
      cases s with
      | host =>
          rw [apply]
          split
          · exact h.next
          · exact h
      | beside t ht => exact h.handsOff (c.arm.handsOff_turn ht)

theorem Stage.Done.away {a : Arm} (h : Stage.returned.Done a) : a.Away where
  reader := h .joinReader (by decide)
  keeper := h .joinKeeper (by decide)
  running := h .lowerReader (by decide)
  keeping := h .lowerKeeper (by decide)
  status := h .showReader (by decide)
  down port := by
    cases port with
    | dashboard => exact h .cutDashboard (by decide)
    | motion => exact h .cutMotion (by decide)
    | realtime => exact h .cutAgain (by decide)

section

variable {a : Arm}

/-- Nobody is there to be stopped, and links that are down are taken down once more. -/
theorem Away.uncounted_deactivate (h : a.Away) : a.deactivate.uncounted = a.uncounted := by
  obtain ⟨hreader, hkeeper, hrunning, hkeeping, hstatus, hdown⟩ := h
  have hlinks := And.intro (hdown .dashboard) (And.intro (hdown .motion) (hdown .realtime))
  have hnoReader (b : Arm) (hb : b.reader = none) : b.runReader = b :=
    exhaust_of_stuck (by simp [stepReader, hb]) _
  have hnoKeeper (b : Arm) (hb : b.keeper = none) : b.runKeeper = b :=
    exhaust_of_stuck (by simp [stepKeeper, hb]) _
  -- With its fields in the open, a shutdown of such an arm computes.
  obtain ⟨config, messages, ⟨dashboard, motion, realtime, controller⟩,
    ⟨running, status, snapshot, notice⟩, reader, keeping, keeper, clock⟩ := a
  simp only at *
  subst hreader hkeeper hrunning hkeeping
  rw [deactivate, stopReader, hnoReader _ rfl]
  rcases hstatus with rfl | rfl
  all_goals
    simp [lower, isFatal, stopKeeper, hnoKeeper, uncounted, Dashboard.disconnect, Bench.update,
      Link.close]
    exact hlinks

/-- What is left behind does not hinder a start. -/
theorem Away.begins (h : a.Away) (hw : a.Welcome) :
    (a.onBench Dashboard.connect).1 = .ok () ∧ a.begun.config = a.config ∧
      a.begun.bench.motion.up = false ∧ a.begun.Rising 5 3 := by
  have hconnect : a.onBench Dashboard.connect =
      (.ok (), { a with bench := { a.bench with dashboard := a.bench.dashboard.opened } }) := by
    have hdial : a.bench.dashboard.dial = (.connected, a.bench.dashboard.opened) :=
      (hw.dials .dashboard).dial
    rw [onBench, Dashboard.connect, hdial]
  have hbegun : a.begun = { a with
      bench := { a.bench with dashboard := a.bench.dashboard.opened }
      keeping := true
      keeper := some .looking
      feed := { a.feed with running := true, status := .disconnected, notice := none }
      reader := some .start } := by
    simp [begun, hconnect, startKeeper, startReader, h.keeper, h.reader]
  have hmotion : a.bench.motion.up = false := h.down .motion
  rw [hconnect, hbegun]
  refine ⟨rfl, rfl, hmotion, ?_⟩
  exact { receive := hw.receive, trials := hw.trials, running := rfl, calm := (by simp), silent := rfl
          realtime := hw.dials .realtime, empty := hw.empty, patient := hw.patient
          motion := hw.dials .motion, dashboard := rfl, keeping := rfl
          reader := ⟨.looking, rfl, rfl, h.down .realtime⟩
          keeper := ⟨.looking, rfl, by simp [Keeper.Rises, hmotion]⟩ }

theorem Away.activates (h : a.Away) (hw : a.Welcome) :
    ∃ up, a.activate = (.ok (), up) ∧ up.Rising 0 0 := by
  obtain ⟨hok, hconfig, hmotion, hrising⟩ := h.begins hw
  have hpassed := hrising.passed (Nat.le_refl 5) (Nat.le_refl 3) activationPeriod
  refine ⟨_, ?_, hpassed⟩
  have hconnect : a.onBench Dashboard.connect = (.ok (), (a.onBench Dashboard.connect).2) :=
    Prod.ext hok rfl
  have hpatience : a.begun.config.patience.connect ≠ 0 := by
    rw [hconfig]
    exact hw.connect
  -- The first look finds the motion link down, with time left.
  have hfirst : (a.begun.isFatal || decide (a.begun.clock + 2 * a.begun.config.patience.connect ≤
      a.begun.clock)) = false := by
    have hcalm : a.begun.isFatal = false := beq_false_of_ne hrising.calm
    rw [hcalm, Bool.false_or, decide_eq_false_iff_not]
    omega
  -- The second finds everything open.
  have hlinks : ((a.begun.pass activationPeriod).bench.motion.up &&
      (a.begun.pass activationPeriod).bench.realtime.up) = true := by
    have hwell := hpassed.working.well
    simp only [isWell, Bool.and_eq_true] at hwell ⊢
    exact ⟨hwell.1.1.2, hwell.1.2⟩
  rw [activate, hconnect]
  show awaitLinks (a.begun.clock + 2 * a.begun.config.patience.connect)
    (2 * a.begun.config.patience.connect / activationPeriod + 2) a.begun = _
  rw [awaitLinks, hmotion, Bool.false_and, if_neg Bool.false_ne_true, hfirst,
    if_neg Bool.false_ne_true, awaitLinks, hlinks, if_pos rfl]

end

/-- Whatever an arm has been through, and whatever the other side has done since: an arm that has
been shut down is not changed by another shutdown. When nothing stands in its way it can be
activated, and it is then well, shows that it streams, has both workers at work and has no notice,
for as long as the background goes on with nothing arriving and no receive timing out. The workers
may also come in any order while activation waits: nothing is fatal in that time, and after five
steps of the reader and three of the keeper everything is open. -/
theorem activates_after_shutdown {before down : Arm}
    (hdown : Leads Turn.isHandsOff before.deactivate down ∨
      ∃ strokes, (Closing.mk .lowerReader before).run (.host :: strokes) = ⟨.returned, down⟩) :
    down.deactivate.uncounted = down.uncounted ∧
      (down.Welcome →
        (∃ up, down.activate = (.ok (), up) ∧
          ∀ turns, (∀ t ∈ turns, t.isBackground = true) → (up.course turns).Working) ∧
        ∀ turns, (∀ t ∈ turns, t.isBackground = true) →
          (down.begun.course turns).isFatal = false ∧
            (down.begun.course turns).takeNotice.1 = none ∧
            (5 ≤ turns.countP Turn.isRead → 3 ≤ turns.countP Turn.isKeep →
              (down.begun.course turns).Working)) := by
  have haway : down.Away := by
    rcases hdown with hleads | ⟨strokes, hreturned⟩
    · exact (before.done_deactivate.handsOff hleads.handsOff).away
    · have hdone := Closing.done_run (c := ⟨.lowerReader, before⟩)
        (fun _ hearlier => absurd hearlier (Nat.not_lt_zero _)) (.host :: strokes)
      rw [hreturned] at hdone
      exact hdone.away
  refine ⟨haway.uncounted_deactivate, fun hw => ⟨?_, fun turns hturns => ?_⟩⟩
  · obtain ⟨up, hactivate, hup⟩ := haway.activates hw
    refine ⟨up, hactivate, fun turns hturns => ?_⟩
    have hcourse := hup.course hturns
    rw [Nat.zero_sub, Nat.zero_sub] at hcourse
    exact hcourse.working
  · have hcourse := (haway.begins hw).2.2.2.course hturns
    refine ⟨beq_false_of_ne hcourse.calm, hcourse.silent, fun hreads hkeeps => ?_⟩
    rw [Nat.sub_eq_zero_of_le hreads, Nat.sub_eq_zero_of_le hkeeps] at hcourse
    exact hcourse.working

/-- The reader has given up at a dial that was refused, and nobody has taken its notice. -/
theorem activates_after_shutdown_unread_notice :
    let config := { Config.forAddress "controller" with
      patience := { Patience.standard with trials := 1 } }
    let link := Link.fresh "down" true
    let bench := { config.unreachable with
      dashboard := link, motion := link, realtime := { link with dials := [.refused "busy"] } }
    let reads (n : Nat) : List Turn := List.replicate n .read
    let before := (Arm.new config bench).course ([.start] ++ reads 5 ++ [.pass 1000] ++ reads 5)
    before.isFatal = true ∧ before.deactivate.feed.notice = some (.gaveUp 1) ∧
      ∃ up, before.deactivate.activate = (.ok (), up) ∧ up.Working := by
  intro config link bench reads before
  have hfatal : before.isFatal = true := by decide +kernel
  have hnotice : before.deactivate.feed.notice = some (.gaveUp 1) := by decide +kernel
  have hwelcome : before.deactivate.Welcome := by
    refine ⟨fun port => ?_, ?_, ?_, ?_, ?_, ?_⟩
    · cases port <;> exact ⟨by decide +kernel, by decide +kernel⟩
    all_goals decide +kernel
  have haway : Leads Turn.isHandsOff before.deactivate before.deactivate := .refl _ _
  obtain ⟨-, hback⟩ := activates_after_shutdown (.inl haway)
  obtain ⟨⟨up, hactivate, hworks⟩, -⟩ := hback hwelcome
  exact ⟨hfatal, hnotice, up, hactivate, hworks [] (by simp)⟩

end Arm

end ArmLink
