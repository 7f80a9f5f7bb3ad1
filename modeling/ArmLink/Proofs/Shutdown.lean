import ArmLink.Proofs.HandsOff
import ArmLink.Proofs.Reassembly

/-!
# Shutting down among the workers

`deactivate` lets the reader run to its end behind the first cut and the keeper
behind its flag, and each of the two rests while the other runs. That is one order
among many. Here a host that shuts down is a place among ten, `Stage`, and between
any two of its steps the workers and the other side do what they like, as often as
they like; only at the two joins does the host have to wait. A dial may then be
accepted behind the first cut, frames may still come, and the cut itself may be one
failure more for the reader. `deactivate` is such a run, as `reaches_deactivate` says.

Two invariants carry the result. `Truthful` ties what is shown to what was done: the
status is `fatal` if the reader of the last run has left its notice, or is just about
to. It holds of every arm there can be. `Underway` is about the shutdown: what
lies behind a stage stays done, because nothing beside the host can undo it, and a
reader that has seen its flag down cannot begin to give up. So what a shutdown
brings about by itself is never fatal. A reader that was already giving up goes
through with it, and the theorem says that this is the only exception.
-/

namespace ArmLink

open ArmLink.Telemetry (Feed Phase Reader Sign Snapshot published)

namespace Telemetry

/-! ## What is shown and what was done -/

/-- Whether the reader has found the limit reached and has not yet left its notice. -/
def Phase.isResigning : Phase → Bool
  | .yielding | .marking | .posting => true
  | _ => false

/-- The status is that of a reader that has left its notice, or is about to. -/
structure Truthful (patience : Patience) (reader : Option Reader) (feed : Feed) (posted : Bool) :
    Prop where
  fatal : feed.status = .fatal ↔ posted = true ∨ ∃ n, reader = some ⟨n, .posting⟩
  silent : ∀ r, reader = some r → r.phase ≠ .finished → posted = false ∧ feed.notice = none
  limit : ∀ r, reader = some r → r.phase.isResigning = true → patience.trials ≤ r.failures

section

variable {patience : Patience} {r r' : Reader} {feed feed' : Feed} {posted : Bool}

/-- A move that does not mark the end and leaves no notice. A reader that has neither left its
notice nor is about to shows no `fatal`, and such a move does not show it either. -/
theorem Truthful.carryOn (h : Truthful patience (some r) feed posted)
    (hphases : r.phase ≠ .finished ∧ r.phase ≠ .posting ∧ r'.phase ≠ .posting)
    (hlimit : r'.phase.isResigning = true → patience.trials ≤ r'.failures)
    (hstatus : feed'.status = feed.status ∨ feed'.status ≠ .fatal)
    (hnotice : feed'.notice = feed.notice) :
    Truthful patience (some r') feed' (posted || (feed.notice.isNone && feed'.notice.isSome)) := by
  obtain ⟨hunfinished, hbefore, hafter⟩ := hphases
  obtain ⟨hposted, hnone⟩ := h.silent r rfl hunfinished
  have hcalm : feed.status ≠ .fatal := fun hfatal => by
    rcases h.fatal.1 hfatal with hleft | ⟨n, hr⟩
    · rw [hposted] at hleft
      cases hleft
    · exact hbefore (by rw [Option.some.inj hr])
  have hcalm' : feed'.status ≠ .fatal := by
    rcases hstatus with hsame | hother
    · rw [hsame]
      exact hcalm
    · exact hother
  have hposts : (posted || (feed.notice.isNone && feed'.notice.isSome)) = false := by
    rw [hposted, hnotice, hnone]
    rfl
  rw [hposts]
  refine ⟨⟨fun hfatal => absurd hfatal hcalm', fun hshown => ?_⟩, fun _ _ _ => ?_,
    fun r₁ hr hphase => ?_⟩
  · rcases hshown with hleft | ⟨n, hr⟩
    · cases hleft
    · exact absurd (by rw [Option.some.inj hr]) hafter
  · exact ⟨rfl, hnotice.trans hnone⟩
  · obtain rfl := Option.some.inj hr
    exact hlimit hphase

theorem Truthful.move {now : Nat} {link link' : Link} {signs : List Sign}
    (h : Truthful patience (some r) feed posted)
    (m : Reader.Moves patience now r feed link signs r' feed' link') :
    Truthful patience (some r') feed' (posted || (feed.notice.isNone && feed'.notice.isSome)) := by
  cases m with
  | giveUp running reached => exact h.carryOn (by simp) (fun _ => reached) (.inl rfl) rfl
  | yield => exact h.carryOn (by simp) (fun _ => h.limit ⟨_, .yielding⟩ rfl rfl) (.inl rfl) rfl
  | mark =>
      obtain ⟨hposted, hnone⟩ := h.silent _ rfl (by simp)
      refine ⟨by simp, fun r hr _ => ?_, fun r hr _ => ?_⟩
      · simp [hposted, hnone]
      · cases hr
        exact h.limit ⟨_, .marking⟩ rfl rfl
  | post =>
      obtain ⟨-, hnone⟩ := h.silent _ rfl (by simp)
      refine ⟨?_, fun r hr hphase => ?_, fun r hr hphase => ?_⟩
      · simpa [hnone] using h.fatal.2 (.inr ⟨_, rfl⟩)
      · cases hr
        exact absurd rfl hphase
      · cases hr
        cases hphase
  | opened dials =>
      rcases dials with rfl | rfl <;>
        exact h.carryOn (by simp) (fun h => by cases h) (.inl rfl) rfl
  | refused dials =>
      rcases dials with rfl | ⟨_, rfl⟩ <;>
        exact h.carryOn (by simp) (fun h => by cases h) (.inl rfl) rfl
  | announce | lie | stream | lower =>
      exact h.carryOn (by simp) (fun h => by cases h) (.inr (by simp)) rfl
  | _ => exact h.carryOn (by simp) (fun h => by cases h) (.inl rfl) rfl

end

end Telemetry

namespace Arm

/-- Whether the reader of the last run has left its notice at `b`, given whether it had at `a`. -/
def posts (posted : Bool) (a b : Arm) : Bool :=
  if a.reader.isNone && b.reader.isSome then false
  else posted || (a.feed.notice.isNone && b.feed.notice.isSome)

/-- Whether the reader of the last run has left its notice behind some turns. -/
def posted (a : Arm) (before : Bool) : List Turn → Bool
  | [] => before
  | t :: rest => (a.turn t).posted (posts before a (a.turn t)) rest

def Truthful (a : Arm) (posted : Bool) : Prop :=
  Telemetry.Truthful a.config.patience a.reader a.feed posted

section

variable {a b : Arm} {posted : Bool}

theorem posts_of_some {r r' : Reader} (hr : a.reader = some r) (hr' : b.reader = some r') :
    posts posted a b = (posted || (a.feed.notice.isNone && b.feed.notice.isSome)) := by
  rw [posts, hr, hr']
  rfl

/-- Nothing is posted when no reader comes and no notice. -/
theorem posts_of_eq (hreader : b.reader = none ∨ b.reader = a.reader)
    (hnotice : b.feed.notice = none ∨ b.feed.notice = a.feed.notice) :
    posts posted a b = posted := by
  have hstart : (a.reader.isNone && b.reader.isSome) = false := by
    rcases hreader with h | h <;> rw [h]
    · exact Bool.and_false _
    · cases a.reader <;> rfl
  have hleft : (a.feed.notice.isNone && b.feed.notice.isSome) = false := by
    rcases hnotice with h | h <;> rw [h]
    · exact Bool.and_false _
    · cases a.feed.notice <;> rfl
  rw [posts, hstart, hleft, Bool.or_false]
  rfl

/-- What does not concern the reader, apart from the notice that may be taken. -/
theorem Truthful.keep (h : a.Truthful posted) (hconfig : b.config = a.config)
    (hreader : b.reader = a.reader) (hstatus : b.feed.status = a.feed.status)
    (hnotice : b.feed.notice = none ∨ b.feed.notice = a.feed.notice) :
    b.Truthful (posts posted a b) := by
  rw [posts_of_eq (.inr hreader) hnotice]
  refine ⟨?_, fun r hr hphase => ?_, fun r hr hphase => ?_⟩
  · rw [hstatus, hreader]
    exact h.fatal
  · obtain ⟨hposted, hnone⟩ := h.silent r (hreader ▸ hr) hphase
    refine ⟨hposted, ?_⟩
    rcases hnotice with hn | hn
    · exact hn
    · rw [hn, hnone]
  · rw [hconfig]
    exact h.limit r (hreader ▸ hr) hphase

theorem Truthful.spares (h : a.Truthful posted) (hab : a.Spares b) :
    b.Truthful (posts posted a b) :=
  h.keep hab.config hab.reader (by rw [hab.feed]) (.inr (by rw [hab.feed]))

theorem Truthful.read (h : a.Truthful posted) :
    (a.turn .read).Truthful (posts posted a (a.turn .read)) := by
  rcases a.turn_read with ⟨-, hturn, -⟩ | ⟨r, r', feed, link, hr, hm, hturn⟩
  · rw [hturn]
    exact h.keep rfl rfl rfl (.inr rfl)
  · rw [Arm.Truthful, hr] at h
    rw [hturn, posts_of_some hr rfl]
    exact h.move hm

/-- All that is shown anew when a reader is stopped is its status. -/
theorem lower_eq (a : Arm) : ∃ status, (status = .fatal ∨ status = .disconnected) ∧
    a.lower = { a with feed := { a.feed with status } } := by
  rw [lower]
  split
  · next hfatal =>
      have hstatus : a.feed.status = .fatal := of_decide_eq_true hfatal
      refine ⟨_, .inl rfl, ?_⟩
      rw [← hstatus]
  · exact ⟨_, .inr rfl, rfl⟩

/-- A reader that has ended is put away, and its notice stays. -/
theorem Truthful.putAway (h : a.Truthful posted) (hended : a.readerEnded = true) :
    Arm.Truthful { a with reader := none } posted := by
  refine ⟨?_, fun r hr => ?_, fun r hr => ?_⟩
  · have hfatal := h.fatal
    refine hfatal.trans ⟨fun hshown => ?_, fun hshown => ?_⟩
    · rcases hshown with hposted | ⟨n, hr⟩
      · exact .inl hposted
      · rw [readerEnded, hr] at hended
        cases hended
    · rcases hshown with hposted | ⟨n, hr⟩
      · exact .inl hposted
      · cases hr
  all_goals cases hr

theorem Truthful.lower (h : a.Truthful posted) (hnone : a.reader = none) :
    a.lower.Truthful posted := by
  rw [Arm.lower]
  split
  · exact h
  · next hfatal =>
      have hposted : posted ≠ true := fun hp =>
        hfatal (by rw [isFatal, h.fatal.2 (.inl hp)]; rfl)
      refine ⟨?_, fun r hr => ?_, fun r hr => ?_⟩
      · simpa [hnone] using hposted
      all_goals
        rw [show a.reader = some r from hr] at hnone
        cases hnone

theorem Truthful.turn (h : a.Truthful posted) (t : Turn) :
    (a.turn t).Truthful (posts posted a (a.turn t)) := by
  cases t with
  | read => exact h.read
  | keep => exact h.spares a.spares_keep
  | aside event => exact h.spares (a.spares_aside event)
  | take => exact h.keep rfl rfl rfl (.inl rfl)
  | pass | sway | cut | lower => exact h.keep rfl rfl rfl (.inr rfl)
  | start =>
      cases hr : a.reader with
      | some r =>
          rw [Arm.turn, startReader_of_some hr]
          exact h.keep rfl rfl rfl (.inr rfl)
      | none =>
          -- A new run begins, and nothing of it is posted.
          have hposts : posts posted a (a.turn .start) = false := by
            simp [posts, Arm.turn, startReader, hr]
          rw [hposts]
          simp only [Arm.turn, startReader, hr, Option.isSome_none, Bool.false_eq_true, if_false]
          refine ⟨by simp [Reader.start], fun r _ _ => ⟨rfl, rfl⟩, fun r hr₁ hphase => ?_⟩
          cases hr₁
          cases hphase
  | join =>
      rw [Arm.turn]
      split
      · next hended =>
          have haway : Arm.Truthful
              { a with reader := none, bench := a.bench.update .realtime Link.close } posted :=
            h.putAway hended
          obtain ⟨status, -, hlower⟩ := lower_eq
            { a with reader := none, bench := a.bench.update .realtime Link.close }
          rw [posts_of_eq (.inl (by rw [hlower])) (.inr (by rw [hlower]))]
          exact haway.lower rfl
      · exact h.keep rfl rfl rfl (.inr rfl)

theorem Truthful.course (h : a.Truthful posted) (turns : List Turn) :
    (a.course turns).Truthful (a.posted posted turns) := by
  induction turns generalizing a posted with
  | nil => exact h
  | cons t rest ih => exact ih (h.turn t)

theorem truthful_new (config : Config) (bench : Bench) : (Arm.new config bench).Truthful false := by
  refine ⟨?_, fun r hr => ?_, fun r hr => ?_⟩
  · simp [Arm.new, Feed.blank]
  all_goals cases hr

end

/-! ## The host and the workers -/

/-- Whether no keeper is there that is still to take steps. -/
def keeperEnded (a : Arm) : Bool :=
  match a.keeper with
  | some k => decide (k = .finished)
  | none => true

/-- The keeper's part of a stop, up to where it is waited for. -/
def halting (a : Arm) : Arm :=
  runKeeper { a with keeping := false }

/-- Where a host stands that shuts an arm down. -/
inductive Stage where
  | lowerReader
  | cutReader
  | joinReader
  /-- The reader has ended, and a link that it dialed since the first cut is still up. -/
  | cutAgain
  | showReader
  | lowerKeeper
  | joinKeeper
  | cutMotion
  | cutDashboard
  | returned
  deriving DecidableEq, Repr

namespace Stage

def next : Stage → Stage
  | lowerReader => cutReader
  | cutReader => joinReader
  | joinReader => cutAgain
  | cutAgain => showReader
  | showReader => lowerKeeper
  | lowerKeeper => joinKeeper
  | joinKeeper => cutMotion
  | cutMotion => cutDashboard
  | cutDashboard => returned
  | returned => returned

/-- How many steps of the host lie behind a stage. -/
def steps : Stage → Nat
  | lowerReader => 0
  | cutReader => 1
  | joinReader => 2
  | cutAgain => 3
  | showReader => 4
  | lowerKeeper => 5
  | joinKeeper => 6
  | cutMotion => 7
  | cutDashboard => 8
  | returned => 9

/-- Whether the host can go on. -/
def isReady (a : Arm) : Stage → Bool
  | joinReader => a.readerEnded
  | joinKeeper => a.keeperEnded
  | returned => false
  | _ => true

/-- What the host does at a stage. -/
def act (a : Arm) : Stage → Arm
  | lowerReader => { a with feed := { a.feed with running := false } }
  | cutReader | cutAgain => { a with bench := a.bench.update .realtime Link.close }
  | joinReader => { a with reader := none }
  | showReader => a.lower
  | lowerKeeper => { a with keeping := false }
  | joinKeeper => { a with keeper := none }
  | cutMotion => { a with bench := a.bench.update .motion Link.close }
  | cutDashboard => { a with bench := Dashboard.disconnect a.bench }
  | returned => a

/-- What is brought about at a stage. -/
def Brings (a : Arm) : Stage → Prop
  | lowerReader => a.feed.running = false
  | joinReader => a.reader = none
  | cutAgain => a.bench.realtime.up = false
  | showReader => a.feed.status = .fatal ∨ a.feed.status = .disconnected
  | lowerKeeper => a.keeping = false
  | joinKeeper => a.keeper = none
  | cutMotion => a.bench.motion.up = false
  | cutDashboard => a.bench.dashboard.up = false
  | cutReader | returned => True

/-- What lies behind a stage has been brought about. -/
def Done (stage : Stage) (a : Arm) : Prop :=
  ∀ earlier : Stage, earlier.steps < stage.steps → earlier.Brings a

theorem brings_act (stage : Stage) (a : Arm) : stage.Brings (stage.act a) := by
  cases stage with
  | showReader =>
      obtain ⟨status, hstatus, hlower⟩ := lower_eq a
      rw [act, hlower]
      exact hstatus
  | cutReader | returned => trivial
  | _ => rfl

/-- No step of the host undoes what another brought about. -/
theorem Brings.act {a : Arm} {stage : Stage} (h : stage.Brings a) (other : Stage) :
    stage.Brings (other.act a) := by
  cases other with
  | showReader =>
      obtain ⟨status, hstatus, hlower⟩ := lower_eq a
      rw [Stage.act, hlower]
      cases stage <;> first
        | exact h
        | exact hstatus
  | _ =>
      cases stage <;> first
        | exact h
        | rfl

theorem Done.next {a : Arm} {stage : Stage} (h : stage.Done a) :
    stage.next.Done (stage.act a) := by
  intro earlier hearlier
  by_cases hsame : earlier = stage
  · rw [hsame]
    exact brings_act stage a
  · refine (h earlier ?_).act stage
    cases stage <;> cases earlier <;> first
      | exact absurd rfl hsame
      | (simp only [Stage.next, steps] at hearlier ⊢; omega)

/-- Nothing that goes on beside the host undoes what it has brought about. -/
theorem Done.handsOff {a b : Arm} {stage : Stage} (h : stage.Done a) (hab : a.HandsOff b) :
    stage.Done b := by
  have hdown {before after : Bool} (hup : after = true → before = true) (hb : before = false) :
      after = false :=
    Bool.eq_false_iff.2 fun hc => by
      rw [hup hc] at hb
      cases hb
  intro earlier hearlier
  have hbrings := h earlier hearlier
  -- A worker that was put away is needed for its link and its status.
  have hreader (hbehind : 2 < earlier.steps) : a.reader = none :=
    h .joinReader (Nat.lt_trans hbehind hearlier)
  have hkeeper (hbehind : 6 < earlier.steps) : a.keeper = none :=
    h .joinKeeper (Nat.lt_trans hbehind hearlier)
  cases earlier with
  | lowerReader => exact hab.running.trans hbrings
  | joinReader => exact hab.reader hbrings
  | cutAgain => exact hdown (hab.realtime (hreader (by decide))) hbrings
  | showReader =>
      rw [Brings, hab.status (hreader (by decide))]
      exact hbrings
  | lowerKeeper => exact hab.keeping.trans hbrings
  | joinKeeper => exact hab.keeper hbrings
  | cutMotion => exact hdown (hab.motion (hkeeper (by decide))) hbrings
  | cutDashboard => exact hdown hab.dashboard hbrings
  | cutReader | returned => trivial

/-- What a step of the host leaves alone. -/
theorem act_frame (stage : Stage) (a : Arm) :
    (∀ port, ((stage.act a).bench.link port).sent = (a.bench.link port).sent) ∧
      (stage.act a).feed.notice = a.feed.notice ∧
      (stage.act a).feed.snapshot = a.feed.snapshot := by
  cases stage with
  | showReader =>
      obtain ⟨status, -, hlower⟩ := lower_eq a
      rw [act, hlower]
      exact ⟨fun _ => rfl, rfl, rfl⟩
  | cutReader | cutAgain | cutMotion | cutDashboard =>
      refine ⟨fun port => ?_, rfl, rfl⟩
      cases port <;> rfl
  | _ => exact ⟨fun _ => rfl, rfl, rfl⟩

/-- The place of the reader is emptied or left as it is. -/
theorem reader_act (stage : Stage) (a : Arm) :
    (stage.act a).reader = none ∨ (stage.act a).reader = a.reader := by
  cases stage with
  | joinReader => exact .inl rfl
  | showReader =>
      obtain ⟨status, -, hlower⟩ := lower_eq a
      exact .inr (by rw [act, hlower])
  | _ => exact .inr rfl

end Stage

/-- An arm that is being shut down. -/
structure Closing where
  stage : Stage
  arm : Arm
  deriving DecidableEq, Repr

/-- Something that happens while an arm is being shut down. -/
inductive Stroke where
  /-- The host takes its next step, if it need not wait. -/
  | host
  | beside (t : Turn) (handsOff : t.isHandsOff = true)

namespace Closing

def apply (c : Closing) : Stroke → Closing
  | .host => if c.stage.isReady c.arm then ⟨c.stage.next, c.stage.act c.arm⟩ else c
  | .beside t _ => { c with arm := c.arm.turn t }

def run (c : Closing) (strokes : List Stroke) : Closing :=
  strokes.foldl apply c

/-- Whether the reader of the last run has left its notice behind some strokes. -/
def posted (c : Closing) (before : Bool) : List Stroke → Bool
  | [] => before
  | s :: rest => (c.apply s).posted (posts before c.arm (c.apply s).arm) rest

/-- The snapshots that are published in the course of some strokes. -/
def publishes (c : Closing) : List Stroke → List Snapshot
  | [] => []
  | .host :: rest => (c.apply .host).publishes rest
  | .beside t h :: rest => published (c.arm.signs t) ++ (c.apply (.beside t h)).publishes rest

end Closing

theorem Truthful.act {a : Arm} {posted : Bool} (h : a.Truthful posted) {stage : Stage}
    (hdone : stage.Done a) (hready : stage.isReady a = true) : (stage.act a).Truthful posted := by
  cases stage with
  | joinReader => exact h.putAway hready
  | showReader => exact h.lower (hdone .joinReader (by decide))
  | lowerReader => exact ⟨h.fatal, h.silent, h.limit⟩
  | _ => exact h

/-- The reader has found the limit reached and is on its way to leave its notice. -/
def Resigned (a : Arm) : Prop :=
  ∃ r, a.reader = some r ∧ r.phase.isResigning = true ∧ a.config.patience.trials ≤ r.failures

/-- A reader whose flag is down does not begin to give up, and only one that gives up leaves a
notice. -/
theorem resigning_of_moves {patience : Patience} {now : Nat} {r r' : Reader} {feed feed' : Feed}
    {link link' : Link} {signs : List Sign}
    (m : Reader.Moves patience now r feed link signs r' feed' link')
    (hrunning : feed.running = false) :
    (r'.phase.isResigning = true → r.phase.isResigning = true) ∧
      (feed'.notice = feed.notice ∨ r.phase.isResigning = true) := by
  cases m with
  | giveUp running =>
      rw [hrunning] at running
      cases running
  | yield | mark | post => exact ⟨fun _ => rfl, .inr rfl⟩
  | _ => exact ⟨fun h => (by cases h), .inl rfl⟩

/-- Beside the reader's own moves, nothing concerns the reader but that its notice may be taken. -/
theorem reader_of_handsOff (a : Arm) {t : Turn} (ht : t.isHandsOff = true) (hread : t ≠ .read) :
    (a.turn t).reader = a.reader ∧
      ((a.turn t).feed.notice = none ∨ (a.turn t).feed.notice = a.feed.notice) := by
  cases t with
  | read => exact absurd rfl hread
  | keep => exact ⟨a.spares_keep.reader, .inr (by rw [a.spares_keep.feed])⟩
  | aside event =>
      exact ⟨(a.spares_aside event).reader, .inr (by rw [(a.spares_aside event).feed])⟩
  | pass => exact ⟨rfl, .inr rfl⟩
  | take => exact ⟨rfl, .inl rfl⟩
  | sway | cut | start | lower | join => cases ht

/-- What a shutdown that began at `before` has come to behind its first step; `was` is whether
the reader had left its notice then, and `posted` whether it has now. -/
structure Underway (before : Arm) (was : Bool) (c : Closing) (posted : Bool) : Prop where
  begun : 0 < c.stage.steps
  done : c.stage.Done c.arm
  sent : ∀ port, (c.arm.bench.link port).sent = (before.bench.link port).sent
  truthful : c.arm.Truthful posted
  kept : was = true → posted = true
  posted : posted = true → was = true ∨ before.Resigned
  resigning : ∀ r, c.arm.reader = some r → r.phase.isResigning = true → before.Resigned
  notice : c.arm.feed.notice = none ∨ c.arm.feed.notice = before.feed.notice ∨ before.Resigned

section

variable {before : Arm} {was posted : Bool} {c : Closing}

/-- The first step of the host lowers the flag of the reader, and nothing else. -/
theorem underway_lowered (h : before.Truthful was) :
    Underway before was ((Closing.mk .lowerReader before).apply .host)
      (posts was before ((Closing.mk .lowerReader before).apply .host).arm) := by
  have hposts : posts was before ((Closing.mk .lowerReader before).apply .host).arm = was :=
    posts_of_eq (.inr rfl) (.inr rfl)
  rw [hposts]
  have hdone : Stage.lowerReader.Done before := fun _ hearlier => absurd hearlier (Nat.not_lt_zero _)
  refine ⟨Nat.zero_lt_one, hdone.next, fun _ => rfl, ?_, id, .inl, fun r hr hphase => ?_,
    .inr (.inl rfl)⟩
  · rw [← hposts]
    exact h.keep rfl rfl rfl (.inr rfl)
  · exact ⟨r, hr, hphase, h.limit r hr hphase⟩

theorem Underway.host (h : Underway before was c posted) :
    Underway before was (c.apply .host) (posts posted c.arm (c.apply .host).arm) := by
  obtain ⟨stage, arm⟩ := c
  rw [Closing.apply]
  split
  · next hready =>
      obtain ⟨hsent, hnotice, -⟩ := stage.act_frame arm
      have hreader := stage.reader_act arm
      rw [posts_of_eq hreader (.inr hnotice)]
      refine ⟨?_, h.done.next, fun port => (hsent port).trans (h.sent port), ?_, h.kept, h.posted,
        fun r hr hphase => ?_, ?_⟩
      · cases stage <;> exact Nat.succ_pos _
      · exact h.truthful.act h.done hready
      · rcases hreader with hnone | hsame
        · rw [hnone] at hr
          cases hr
        · exact h.resigning r (hsame ▸ hr) hphase
      · rw [hnotice]
        exact h.notice
  · rw [posts_of_eq (.inr rfl) (.inr rfl)]
    exact h

theorem Underway.beside_read (h : Underway before was c posted) :
    Underway before was (c.apply (.beside .read rfl))
      (posts posted c.arm (c.apply (.beside .read rfl)).arm) := by
  have hands := c.arm.handsOff_turn (t := .read) rfl
  have htruthful := h.truthful.read
  have hdone := h.done.handsOff hands
  have hsent port := (hands.sent port).trans (h.sent port)
  show Underway before was ⟨c.stage, c.arm.turn .read⟩ (posts posted c.arm (c.arm.turn .read))
  rcases c.arm.turn_read with ⟨-, hturn, -⟩ | ⟨r, r', feed, link, hr, hm, hturn⟩
  · rw [hturn, posts_of_eq (.inr rfl) (.inr rfl)]
    exact h
  · rw [hturn, posts_of_some hr rfl] at htruthful ⊢
    rw [hturn] at hdone hsent
    obtain ⟨hback, hnotice⟩ := resigning_of_moves hm (h.done .lowerReader h.begun)
    by_cases hphase : r.phase.isResigning = true
    · have hresigned := h.resigning r hr hphase
      exact ⟨h.begun, hdone, hsent, htruthful, fun hw => by rw [h.kept hw]; rfl,
        fun _ => .inr hresigned, fun _ _ _ => hresigned, .inr (.inr hresigned)⟩
    · have hsame : feed.notice = c.arm.feed.notice := hnotice.resolve_right hphase
      have hposts : (posted || (c.arm.feed.notice.isNone && feed.notice.isSome)) = posted := by
        rw [hsame]
        cases c.arm.feed.notice <;> simp
      simp only [hposts] at htruthful ⊢
      refine ⟨h.begun, hdone, hsent, htruthful, h.kept, h.posted, fun r₁ hr₁ hphase₁ => ?_, ?_⟩
      · obtain rfl := Option.some.inj hr₁
        exact absurd (hback hphase₁) hphase
      · show feed.notice = none ∨ _
        rw [hsame]
        exact h.notice

theorem Underway.beside (h : Underway before was c posted) (t : Turn) (ht : t.isHandsOff = true) :
    Underway before was (c.apply (.beside t ht))
      (posts posted c.arm (c.apply (.beside t ht)).arm) := by
  by_cases hread : t = .read
  · subst hread
    exact h.beside_read
  · have hands := c.arm.handsOff_turn ht
    have htruthful := h.truthful.turn t
    obtain ⟨hreader, hnotice⟩ := reader_of_handsOff c.arm ht hread
    rw [Closing.apply]
    rw [posts_of_eq (.inr hreader) hnotice] at htruthful ⊢
    refine ⟨h.begun, h.done.handsOff hands, fun port => (hands.sent port).trans (h.sent port),
      htruthful, h.kept, h.posted, fun r hr => ?_, ?_⟩
    · exact h.resigning r (hreader ▸ hr)
    · rcases hnotice with hnone | hsame
      · exact .inl hnone
      · show (c.arm.turn t).feed.notice = none ∨ _
        rw [hsame]
        exact h.notice

end

/-- The last of two lists is that of the second, if there is one. -/
theorem getLastD_append {α : Type} (xs ys : List α) (d : α) :
    (xs ++ ys).getLastD d = ys.getLastD (xs.getLastD d) := by
  simp only [List.getLastD_eq_getLast?, List.getLast?_append]
  cases ys.getLast? <;> rfl

namespace Closing

theorem run_append (c : Closing) (xs ys : List Stroke) : c.run (xs ++ ys) = (c.run xs).run ys :=
  List.foldl_append ..

theorem underway_run {before : Arm} {was posted : Bool} {c : Closing}
    (h : Underway before was c posted) (strokes : List Stroke) :
    Underway before was (c.run strokes) (c.posted posted strokes) := by
  induction strokes generalizing c posted with
  | nil => exact h
  | cons s rest ih =>
      cases s with
      | host => exact ih h.host
      | beside t ht => exact ih (h.beside t ht)

theorem snapshot_run (c : Closing) (strokes : List Stroke) :
    (c.run strokes).arm.feed.snapshot = (c.publishes strokes).getLastD c.arm.feed.snapshot := by
  induction strokes generalizing c with
  | nil => rfl
  | cons s rest ih =>
      show ((c.apply s).run rest).arm.feed.snapshot = _
      rw [ih]
      cases s with
      | host =>
          have hsame : (c.apply .host).arm.feed.snapshot = c.arm.feed.snapshot := by
            rw [apply]
            split
            · exact (c.stage.act_frame c.arm).2.2
            · rfl
          rw [hsame]
          rfl
      | beside t ht =>
          rw [publishes]
          show _ = (published (c.arm.signs t) ++ _).getLastD _
          have hturn : (c.apply (.beside t ht)).arm.feed.snapshot =
              (published (c.arm.signs t)).getLastD c.arm.feed.snapshot := c.arm.snapshot_turn t
          rw [hturn, getLastD_append]

/-- Some strokes lead from `c` to `d`. -/
def Reaches (c d : Closing) : Prop :=
  ∃ strokes, c.run strokes = d

theorem Reaches.trans {c d e : Closing} (hcd : c.Reaches d) (hde : d.Reaches e) :
    c.Reaches e := by
  obtain ⟨xs, rfl⟩ := hcd
  obtain ⟨ys, rfl⟩ := hde
  exact ⟨xs ++ ys, c.run_append xs ys⟩

theorem reaches_host (stage : Stage) {a : Arm} (h : stage.isReady a = true) :
    (Closing.mk stage a).Reaches ⟨stage.next, stage.act a⟩ := by
  refine ⟨[.host], ?_⟩
  show (Closing.mk stage a).apply .host = _
  rw [apply, if_pos h]

/-- A worker works as far as it can while the host waits. -/
theorem reaches_exhaust (stage : Stage) (a : Arm) {t : Turn} {step : Arm → Option Arm}
    (ht : t.isHandsOff = true) (hstep : ∀ a : Arm, a.turn t = (step a).getD a) (fuel : Nat) :
    (Closing.mk stage a).Reaches ⟨stage, exhaust step fuel a⟩ := by
  rw [exhaust_eq_course hstep]
  refine ⟨List.replicate fuel (.beside t ht), ?_⟩
  induction fuel generalizing a with
  | zero => rfl
  | succ fuel ih => exact ih (a.turn t)

/-- `deactivate` is a shutdown in which each worker runs while the host waits for it. -/
theorem reaches_deactivate (a : Arm) (hreader : a.stopping.readerEnded = true)
    (hkeeper : a.stopReader.halting.keeperEnded = true) :
    ((Closing.mk .lowerReader a).apply .host).Reaches ⟨.returned, a.deactivate⟩ := by
  let cut := Stage.cutReader.act (Stage.lowerReader.act a)
  let lowered := Stage.lowerKeeper.act a.stopReader
  have hreads : ((Closing.mk .lowerReader a).apply .host).Reaches ⟨.joinReader, a.stopping⟩ :=
    (reaches_host .cutReader rfl).trans
      (reaches_exhaust _ cut (t := .read) rfl (fun _ => rfl) cut.readerFuel)
  have hjoins : (Closing.mk .joinReader a.stopping).Reaches ⟨.lowerKeeper, a.stopReader⟩ :=
    ((reaches_host .joinReader hreader).trans
      (reaches_host .cutAgain rfl)).trans
      (reaches_host .showReader rfl)
  have hkeeps : (Closing.mk .lowerKeeper a.stopReader).Reaches
      ⟨.joinKeeper, a.stopReader.halting⟩ :=
    (reaches_host .lowerKeeper rfl).trans
      (reaches_exhaust _ lowered (t := .keep) rfl (fun _ => rfl) 16)
  have hdeactivate : a.deactivate =
      Stage.cutDashboard.act (Stage.cutMotion.act (Stage.joinKeeper.act a.stopReader.halting)) := by
    rw [deactivate, stopKeeper]
    rfl
  have hcuts : (Closing.mk .joinKeeper a.stopReader.halting).Reaches ⟨.returned, a.deactivate⟩ := by
    rw [hdeactivate]
    exact ((reaches_host .joinKeeper hkeeper).trans
      (reaches_host .cutMotion rfl)).trans
      (reaches_host .cutDashboard rfl)
  exact ((hreads.trans hjoins).trans hkeeps).trans hcuts

end Closing

/-- Whatever the workers and the other side do between its steps, a shutdown that has come to its
end has waited for both workers, has all three links down and both flags lowered, and has sent
nothing. The arm then shows `fatal` exactly if the reader of the last run left its notice, and
the last snapshot that was published. Neither the status nor the notice is the work of the
shutdown: they are as they were, unless the reader was already giving up at its limit when its flag
was lowered. -/
theorem shutdown_puts_everything_away (config : Config) (bench : Bench) (turns : List Turn)
    (strokes : List Stroke) :
    let start := Arm.new config bench
    let before := start.course turns
    let closing : Closing := ⟨.lowerReader, before⟩
    let was := start.posted false turns
    let posted := closing.posted was (.host :: strokes)
    (before.stopping.readerEnded = true → before.stopReader.halting.keeperEnded = true →
      ∃ strokes, closing.run (.host :: strokes) = ⟨.returned, before.deactivate⟩) ∧
    ∀ now, closing.run (.host :: strokes) = ⟨.returned, now⟩ →
      (now.reader = none ∧ now.keeper = none) ∧
      (∀ port, (now.bench.link port).up = false ∧
        (now.bench.link port).sent = (before.bench.link port).sent) ∧
      (now.feed.running = false ∧ now.keeping = false ∧ now.isWell = false) ∧
      now.feed.status = (if posted then .fatal else .disconnected) ∧
      now.feed.snapshot =
        (published (start.trail turns) ++ closing.publishes (.host :: strokes)).getLastD .blank ∧
      (¬ before.Resigned → posted = was ∧ now.isFatal = before.isFatal ∧
        (now.feed.notice = none ∨ now.feed.notice = before.feed.notice)) := by
  intro start before closing was posted
  refine ⟨Closing.reaches_deactivate before, fun now hnow => ?_⟩
  have htruthful : before.Truthful was := (truthful_new config bench).course turns
  have hway : Underway before was (closing.run (.host :: strokes)) posted :=
    Closing.underway_run (underway_lowered htruthful) strokes
  have hsnapshot := closing.snapshot_run (.host :: strokes)
  rw [hnow] at hway hsnapshot
  have hbrings (stage : Stage) (hbehind : stage.steps < 9) : stage.Brings now :=
    hway.done stage hbehind
  have hreader : now.reader = none := hbrings .joinReader (by decide)
  have hdown (port : Port) : (now.bench.link port).up = false := by
    cases port with
    | dashboard => exact hbrings .cutDashboard (by decide)
    | motion => exact hbrings .cutMotion (by decide)
    | realtime => exact hbrings .cutAgain (by decide)
  have hfatal : now.feed.status = .fatal ↔ posted = true := by
    have hshown := hway.truthful.fatal
    rw [hreader] at hshown
    simpa using hshown
  refine ⟨⟨hreader, hbrings .joinKeeper (by decide)⟩, fun port => ⟨hdown port, hway.sent port⟩,
    ⟨hbrings .lowerReader (by decide), hbrings .lowerKeeper (by decide), ?_⟩, ?_, ?_,
    fun hnot => ?_⟩
  · have hdashboard := hdown .dashboard
    rw [Bench.link] at hdashboard
    rw [isWell, hdashboard]
    rfl
  · split
    · next hposted => exact hfatal.2 hposted
    · next hposted =>
        exact (hbrings .showReader (by decide)).resolve_left fun h => hposted (hfatal.1 h)
  · rw [getLastD_append]
    exact hsnapshot.trans (congrArg _ (start.snapshot_course turns))
  · have hsame : posted = was :=
      Bool.eq_iff_iff.2 ⟨fun h => (hway.posted h).resolve_right hnot, hway.kept⟩
    refine ⟨hsame, ?_, hway.notice.imp_right fun h => h.resolve_right hnot⟩
    have hwas : before.feed.status = .fatal ↔ was = true := by
      refine htruthful.fatal.trans ⟨fun h => h.resolve_right fun ⟨n, hr⟩ => ?_, .inl⟩
      exact hnot ⟨_, hr, rfl, htruthful.limit _ hr rfl⟩
    rw [hsame] at hfatal
    rw [isFatal, isFatal, Bool.eq_iff_iff, beq_iff_eq, beq_iff_eq]
    exact hfatal.trans hwas.symm

/-- A reader is dialing when its flag is lowered. The dial is accepted behind the cut, and the
silence on that link is as many failures as the limit bears, and still nothing is fatal. -/
theorem shutdown_puts_everything_away_late_dial :
    let config := { Config.forAddress "controller" with
      patience := { Patience.standard with trials := 1 } }
    let bench := { config.unreachable with realtime := Link.fresh "down" true }
    let turns := [Turn.start, .read, .read, .read]
    let closing : Closing := ⟨.lowerReader, (Arm.new config bench).course turns⟩
    let reads (n : Nat) : List Stroke := List.replicate n (.beside .read rfl)
    let silence : Stroke := .beside (.aside (.arrive .realtime .quiet)) rfl
    let dialed := .host :: reads 1
    let failed := dialed ++ reads 1 ++ [silence] ++ reads 3
    let strokes := failed ++ reads 1 ++ List.replicate 8 .host
    let last := closing.run (.host :: strokes)
    (closing.run (.host :: dialed)).arm.bench.realtime.up = true ∧
      (closing.run (.host :: failed)).arm.reader = some ⟨config.patience.trials, .looking⟩ ∧
      last.stage = .returned ∧ last.arm.feed.status = .disconnected ∧
      last.arm.feed.notice = none ∧ ∀ port, (last.arm.bench.link port).up = false := by
  intro config bench turns closing reads silence dialed failed strokes last
  have hdialed : (closing.run (.host :: dialed)).arm.bench.realtime.up = true := by decide +kernel
  have hfailed : (closing.run (.host :: failed)).arm.reader =
      some ⟨config.patience.trials, .looking⟩ := by decide +kernel
  have hreturned : last.stage = .returned := by decide +kernel
  have hdialing : closing.arm.reader = some ⟨0, .dialing⟩ := by decide +kernel
  have hunposted : (Arm.new config bench).posted false turns = false := by decide +kernel
  have hsilent : closing.arm.feed.notice = none := by decide +kernel
  have hnot : ¬ closing.arm.Resigned := by
    rintro ⟨r, hr, hphase, -⟩
    rw [hdialing] at hr
    cases hr
    cases hphase
  obtain ⟨-, hend⟩ := shutdown_puts_everything_away config bench turns strokes
  obtain ⟨-, hlinks, -, hstatus, -, hsame⟩ := hend last.arm (by rw [← hreturned])
  obtain ⟨hposted, -, hnotice⟩ := hsame hnot
  rw [if_neg (by rw [hposted, hunposted]; exact Bool.false_ne_true)] at hstatus
  refine ⟨hdialed, hfailed, hreturned, hstatus, ?_, fun port => (hlinks port).1⟩
  rcases hnotice with h | h
  · exact h
  · exact h.trans hsilent

end Arm

end ArmLink
