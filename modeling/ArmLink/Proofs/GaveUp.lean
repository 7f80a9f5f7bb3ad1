import ArmLink.Proofs.Interleaving

/-!
# A reader that gave up stays out

Once a reader has shown that it gave up, nothing it does any more concerns the
link: it leaves its notice and ends. It also keeps its place, so that a start
finds a reader there and does nothing. Only a stop puts it away, and only a start
behind that stop brings a new reader, which is the one way out.

`GaveUp` is what every other turn keeps, and with it the link is left alone. It
is carried from turns to events and from events to the steps of a session, the
moves that are followed included, for any session in which no start comes behind
a stop.
-/

namespace ArmLink

open ArmLink.Telemetry (Phase Reader Sign)

/-- Whether the reader has shown that it gave up. -/
def Telemetry.Phase.isShown : Phase → Bool
  | .posting | .finished => true
  | _ => false

def Step.events : Step → List Event
  | .event e => [e]
  | .moveAndWait _ _ events => events.map Prod.snd

/-- No reader is started behind a stop. -/
def NoRestart (events : List Event) : Prop :=
  events.Pairwise fun event later => event.stops = true → later.starts = false

theorem map_snd_inOrder (time : Nat) (events : List (Nat × Event)) :
    (inOrder time events).map Prod.snd = events.map Prod.snd := by
  induction events generalizing time with
  | nil => rfl
  | cons event rest ih => rw [inOrder, List.map_cons, ih, List.map_cons]

theorem Event.stops_of_starts {event : Event} (h : event.starts = true) :
    event.stops = false := by
  cases event <;> first
    | rfl
    | cases h

namespace Arm

/-- The reader gave up and has at most its notice left to leave. -/
structure GaveUp (a : Arm) : Prop where
  fatal : a.feed.status = .fatal
  down : a.bench.realtime.up = false
  idle : ∀ r, a.reader = some r → r.phase.isShown = true

theorem GaveUp.isFatal {a : Arm} (g : a.GaveUp) : a.isFatal = true := by
  rw [Arm.isFatal]
  rw [g.fatal]
  rfl

theorem GaveUp.isWell {a : Arm} (g : a.GaveUp) : a.isWell = false := by
  rw [Arm.isWell]
  rw [g.isFatal, Bool.not_true, Bool.and_false]

theorem GaveUp.spares {a b : Arm} (g : a.GaveUp) (h : a.Spares b) : b.GaveUp where
  fatal := by rw [h.feed, g.fatal]
  down := Bool.eq_false_iff.2 fun hup => by
    have := h.realtime.up hup
    rw [g.down] at this
    cases this
  idle r hr := g.idle r (h.reader.symm.trans hr)

/-- What is left of a reader that has shown that it gave up is to leave its notice. -/
theorem moves_of_isShown {patience : Patience} {now : Nat} {r r' : Reader}
    {feed feed' : Telemetry.Feed} {link link' : Link} {signs : List Sign}
    (m : Reader.Moves patience now r feed link signs r' feed' link')
    (h : r.phase.isShown = true) :
    signs = [] ∧ feed'.status = feed.status ∧ link' = link ∧ r'.phase = .finished := by
  cases m with
  | post => exact ⟨rfl, rfl, rfl, rfl⟩
  | opened dials => rcases dials with rfl | rfl <;> cases h
  | refused dials => rcases dials with rfl | ⟨_, rfl⟩ <;> cases h
  | _ => cases h

/-- Every turn but a real start keeps a reader out, and none of them uses the link. -/
theorem GaveUp.turn {a : Arm} (g : a.GaveUp) {t : Turn} (hsway : ∀ link, t ≠ .sway link)
    (hstart : t = .start → a.reader.isSome = true) :
    (a.turn t).GaveUp ∧ a.bench.realtime.LeftAlone (a.turn t).bench.realtime := by
  cases t with
  | read =>
      rcases a.turn_read with ⟨-, hturn, -⟩ | ⟨r, r', feed, link, hr, hm, hturn⟩
      · rw [hturn]
        exact ⟨g, .refl _⟩
      · obtain ⟨-, hstatus, hlink, hphase⟩ := moves_of_isShown hm (g.idle r hr)
        rw [hturn, hlink]
        refine ⟨⟨hstatus.trans g.fatal, g.down, fun r₁ hr₁ => ?_⟩, .refl _⟩
        obtain rfl := Option.some.inj hr₁
        rw [hphase]
        rfl
  | keep => exact ⟨g.spares a.spares_keep, a.spares_keep.realtime⟩
  | aside event => exact ⟨g.spares (a.spares_aside event), (a.spares_aside event).realtime⟩
  | pass milliseconds => exact ⟨⟨g.fatal, g.down, g.idle⟩, .refl _⟩
  | sway link => exact absurd rfl (hsway link)
  | cut => exact ⟨⟨g.fatal, rfl, g.idle⟩, Link.leftAlone_close _⟩
  | take => exact ⟨⟨g.fatal, g.down, g.idle⟩, .refl _⟩
  | lower => exact ⟨⟨g.fatal, g.down, g.idle⟩, .refl _⟩
  | start =>
      obtain ⟨r, hr⟩ := Option.isSome_iff_exists.1 (hstart rfl)
      rw [Arm.turn, startReader_of_some hr]
      exact ⟨g, .refl _⟩
  | join =>
      simp only [Arm.turn]
      split
      · have hfatal : Arm.isFatal ({ a with
            reader := none, bench := a.bench.update .realtime Link.close } : Arm) = true :=
          g.isFatal
        rw [Arm.lower, if_pos hfatal]
        refine ⟨⟨g.fatal, rfl, fun r hr => ?_⟩, Link.leftAlone_close _⟩
        cases hr
      · exact ⟨g, .refl _⟩

/-- Only putting the reader away leaves its place empty. -/
theorem isSome_reader_turn {a : Arm} (h : a.reader.isSome = true) {t : Turn} (ht : t ≠ .join) :
    (a.turn t).reader.isSome = true := by
  cases t with
  | read =>
      rcases a.turn_read with ⟨-, hturn, -⟩ | ⟨_, _, _, _, _, _, hturn⟩ <;> rw [hturn]
      · exact h
      · rfl
  | keep => rw [a.spares_keep.reader, h]
  | aside event => rw [(a.spares_aside event).reader, h]
  | start =>
      obtain ⟨r, hr⟩ := Option.isSome_iff_exists.1 h
      rw [Arm.turn, startReader_of_some hr, h]
  | join => exact absurd rfl ht
  | pass | sway | cut | take | lower => exact h

theorem GaveUp.course {a : Arm} (g : a.GaveUp) (event : Event) {turns : List Turn}
    (hturns : ∀ t ∈ turns, t.isOf event = true)
    (hstart : event.starts = true → a.reader.isSome = true) :
    (a.course turns).GaveUp ∧
      a.bench.realtime.LeftAlone (a.course turns).bench.realtime ∧
      (event.stops = false → a.reader.isSome = true → (a.course turns).reader.isSome = true) := by
  induction turns generalizing a with
  | nil => exact ⟨g, .refl _, fun _ h => h⟩
  | cons t rest ih =>
      have ht := hturns t List.mem_cons_self
      have hjoin : event.stops = false → t ≠ .join := by
        rintro hstops rfl
        exact absurd (ht.symm.trans hstops) (by decide)
      obtain ⟨gt, hleft⟩ := g.turn (t := t) (by rintro link rfl; cases ht)
        (by rintro rfl; exact hstart ht)
      obtain ⟨gr, hrest, hsome⟩ := ih gt (fun u hu => hturns u (List.mem_cons_of_mem t hu))
        fun hs => isSome_reader_turn (hstart hs) (hjoin (Event.stops_of_starts hs))
      exact ⟨gr, hleft.trans hrest, fun hs h => hsome hs (isSome_reader_turn h (hjoin hs))⟩

/-- A stop finds a reader that gave up at its end, or one step before it. -/
theorem GaveUp.stopping_ended {a : Arm} (g : a.GaveUp) : a.stopping.readerEnded = true := by
  have hdone (fuel : Nat) {b : Arm} (hb : b.readerEnded = true) :
      (exhaust stepReader fuel b).readerEnded = true := by
    refine exhaust_keeps (P := fun b => b.readerEnded = true) (fun c d hstep hc => ?_) fuel hb
    rw [readerEnded] at hc
    cases hr : c.reader with
    | none => simp [stepReader, hr] at hstep
    | some r =>
        rw [hr] at hc
        simp [stepReader, hr, Reader.step, of_decide_eq_true hc] at hstep
  have hfuel (b : Arm) : ∃ fuel, b.readerFuel = fuel + 1 :=
    Nat.exists_eq_add_one.2 (Nat.mul_pos (by decide)
      (Nat.mul_pos (Nat.succ_pos _) (Nat.succ_pos _)))
  unfold stopping runReader
  obtain ⟨fuel, hfuel⟩ := hfuel { a with
    feed := { a.feed with running := false }, bench := a.bench.update .realtime Link.close }
  rw [hfuel]
  cases hr : a.reader with
  | none => exact hdone _ (by simp [readerEnded])
  | some r =>
      obtain ⟨n, phase⟩ := r
      have hshown := g.idle _ hr
      cases phase with
      | finished => exact hdone _ (by simp [readerEnded])
      | posting =>
          rw [exhaust]
          simp only [stepReader, Reader.step]
          exact hdone fuel rfl
      | _ => cases hshown

theorem GaveUp.undergo {a : Arm} (g : a.GaveUp) {event : Event}
    (hstart : event.starts = true → a.reader.isSome = true) :
    (a.undergo event).2.GaveUp ∧
      a.bench.realtime.LeftAlone (a.undergo event).2.bench.realtime ∧
      (event.stops = false → a.reader.isSome = true →
        (a.undergo event).2.reader.isSome = true) := by
  obtain ⟨turns, hturns, hb⟩ := a.undergo_leads event fun _ => g.stopping_ended
  rw [← hb]
  exact g.course event hturns hstart

theorem GaveUp.settle {a : Arm} (g : a.GaveUp) :
    a.settle.GaveUp ∧ a.bench.realtime.LeftAlone a.settle.bench.realtime ∧
      (a.reader.isSome = true → a.settle.reader.isSome = true) := by
  obtain ⟨turns, hturns, hb⟩ := a.leads_settle
  obtain ⟨gb, hleft, hsome⟩ := g.course .snapshot
    (fun t ht => background_isOf _ t (hturns t ht)) (fun h => nomatch h)
  rw [← hb]
  exact ⟨gb, hleft, hsome rfl⟩

/-- No start comes behind a stop, and none at all when no reader is there. -/
def Secluded (a : Arm) (events : List Event) : Prop :=
  NoRestart events ∧ (a.reader.isSome = false → ∀ event ∈ events, event.starts = false)

theorem GaveUp.undergoAll {a : Arm} (g : a.GaveUp) (events : List Event) {later : List Event}
    (h : a.Secluded (events ++ later)) :
    (a.undergoAll events).2.GaveUp ∧
      a.bench.realtime.LeftAlone (a.undergoAll events).2.bench.realtime ∧
      (a.undergoAll events).2.Secluded later := by
  induction events generalizing a with
  | nil => exact ⟨g, .refl _, h⟩
  | cons event rest ih =>
      obtain ⟨hrestart, hnone⟩ := h
      obtain ⟨hbehind, hrest⟩ := List.pairwise_cons.1 hrestart
      have hstart : event.starts = true → a.reader.isSome = true := fun hs => by
        cases hsome : a.reader.isSome with
        | true => rfl
        | false => exact absurd (hs.symm.trans (hnone hsome event List.mem_cons_self)) (by decide)
      obtain ⟨gb, hleft, hsome⟩ := g.undergo hstart
      have hsecluded : (a.undergo event).2.Secluded (rest ++ later) := by
        refine ⟨hrest, fun hb e he => ?_⟩
        cases hstops : event.stops with
        | true => exact hbehind e he hstops
        | false =>
            refine hnone (Bool.eq_false_iff.2 fun hc => ?_) e (List.mem_cons_of_mem _ he)
            rw [hsome hstops hc] at hb
            cases hb
      obtain ⟨gc, hleft', hlater⟩ := ih gb hsecluded
      exact ⟨gc, hleft.trans hleft', hlater⟩

theorem spares_sendMove (target : Robot.Pose) (a : Arm) : a.Spares (a.sendMove target).2 := by
  rw [sendMove]
  split
  · exact .refl a
  · exact spares_onBench (Motion.Move.leftAlone_send _ _ (by decide))

theorem GaveUp.take {a : Arm} (g : a.GaveUp) {step : Step} {later : List Event}
    (h : a.Secluded (step.events ++ later)) :
    (a.take step).2.GaveUp ∧ a.bench.realtime.LeftAlone (a.take step).2.bench.realtime ∧
      (a.take step).2.Secluded later := by
  cases step with
  | event event => exact g.undergoAll [event] h
  | moveAndWait target limit events =>
      have hsent := a.spares_sendMove target
      have hsecluded : (a.sendMove target).2.Secluded
          ((inOrder 0 events).map Prod.snd ++ later) := by
        rw [map_snd_inOrder]
        exact ⟨h.1, by rw [hsent.reader]; exact h.2⟩
      obtain ⟨gb, hleft, hlater⟩ := (g.spares hsent).undergoAll _ hsecluded
      obtain ⟨gc, hsettled, hsome⟩ := gb.settle
      refine ⟨gc, (hsent.realtime.trans hleft).trans hsettled, hlater.1, fun hc => ?_⟩
      exact hlater.2 (Bool.eq_false_iff.2 fun hb => Bool.eq_false_iff.1 hc (hsome hb))

/-- In a session without a restart a reader that gave up stays out. -/
theorem GaveUp.takeAll {a : Arm} (g : a.GaveUp) {steps : List Step}
    (h : a.Secluded (steps.flatMap Step.events)) :
    ∀ result ∈ a.takeAll steps,
      result.2.GaveUp ∧ a.bench.realtime.LeftAlone result.2.bench.realtime := by
  induction steps generalizing a with
  | nil => intro result hresult; cases hresult
  | cons step rest ih =>
      obtain ⟨gb, hleft, hsecluded⟩ := g.take h
      intro result hresult
      rcases List.mem_cons.1 hresult with rfl | hresult
      · exact ⟨gb, hleft⟩
      · obtain ⟨gc, hrest⟩ := ih gb hsecluded result hresult
        exact ⟨gc, hleft.trans hrest⟩

end Arm

end ArmLink
