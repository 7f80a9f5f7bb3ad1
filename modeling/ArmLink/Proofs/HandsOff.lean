import ArmLink.Proofs.Interleaving

/-!
# While the host keeps its hands off

A host that does nothing still lives with what goes on beside it: the two workers
take steps, time passes, the other side acts, and somebody may take the notice.
`HandsOff` says what none of that can do. Nothing is sent on any link. The flags
of the workers say what they said. The dashboard does not come up, because only
the host dials it. And a worker that was put away stays away: then nobody dials
its link either, and nobody else shows a status.

`LeftAlone` could not say this. It is about one link and leaves the host a free
hand with the others, while here every link counts and the host has no part. For
the same reason `sway` is not among these turns: it may put any link in the place
of the old one, and with it another account of what was sent. What the other side
does to a link comes as an event here.
-/

namespace ArmLink

open ArmLink.Motion (Keeper)
open ArmLink.Telemetry (Feed Reader Sign)

/-! ## Nothing but a send adds to what was sent -/

theorem Link.sent_receive (size : Nat) (link : Link) :
    (link.receive size).2.sent = link.sent := by
  have h := link.receives size
  generalize (link.receive size).1 = result, (link.receive size).2 = next at h
  cases h <;> rfl

theorem Link.sent_dial (link : Link) : link.dial.2.sent = link.sent := by
  unfold dial
  split
  · rfl
  · rfl
  · split <;> rfl

theorem Telemetry.Reader.sent_step {patience : Patience} {now : Nat} {r r' : Reader}
    {feed feed' : Feed} {link link' : Link}
    (h : r.step patience now feed link = some (r', feed', link')) : link'.sent = link.sent := by
  obtain ⟨n, phase⟩ := r
  cases phase with
  | dialing =>
      simp only [step, Option.some.injEq, Prod.mk.injEq] at h
      rw [← h.2.2]
      exact Link.sent_dial link
  | hanging cuts =>
      have hdial := Link.sent_dial link
      simp only [step] at h
      split at h
      · simp only [Option.some.injEq, Prod.mk.injEq] at h
        rw [← h.2.2]
      · split at h
        · cases h
        · next heq =>
            rw [heq] at hdial
            simp only [Option.some.injEq, Prod.mk.injEq] at h
            rw [← h.2.2]
            exact hdial
  | gathering got =>
      have hreceive := Link.sent_receive (frameSize - got.length) link
      simp only [step] at h
      split at h
      · simp only [Option.some.injEq, Prod.mk.injEq] at h
        rw [← h.2.2]
      · split at h
        · simp only [Option.some.injEq, Prod.mk.injEq] at h
          rw [← h.2.2]
        · split at h
          all_goals try cases h
          all_goals
            next heq =>
              rw [heq] at hreceive
              exact hreceive
  | resting wake =>
      simp only [step] at h
      split at h
      · cases h
      · simp only [Option.some.injEq, Prod.mk.injEq] at h
        rw [← h.2.2]
  | finished => cases h
  | yielding | cutting =>
      simp only [step, Option.some.injEq, Prod.mk.injEq] at h
      rw [← h.2.2]
      rfl
  | _ =>
      simp only [step, Option.some.injEq, Prod.mk.injEq] at h
      rw [← h.2.2]

theorem Motion.Keeper.sent_step {patience : Patience} {now : Nat} {keeping : Bool}
    {k k' : Keeper} {link link' : Link} (h : k.step patience now keeping link = some (k', link')) :
    link'.sent = link.sent := by
  have hdial := Link.sent_dial link
  cases k with
  | dialing =>
      simp only [step] at h
      split at h
      all_goals try cases h
      all_goals
        next heq =>
          rw [heq] at hdial
          exact hdial
  | resting wake =>
      simp only [step] at h
      split at h
      · cases h
      · simp only [Option.some.injEq, Prod.mk.injEq] at h
        rw [← h.2]
  | finished => cases h
  | looking | probing =>
      simp only [step, Option.some.injEq, Prod.mk.injEq] at h
      rw [← h.2]

/-- No move of a reader touches its flag. -/
theorem Telemetry.Reader.Moves.running_eq {patience : Patience} {now : Nat} {r r' : Reader}
    {feed feed' : Feed} {link link' : Link} {signs : List Sign}
    (m : Moves patience now r feed link signs r' feed' link') : feed'.running = feed.running := by
  cases m <;> rfl

/-- Whether the event is something the other side does. -/
def Event.isOutside : Event → Bool
  | .arrive _ _ | .expect _ _ | .setFallback _ _ | .failSend _ _ | .drop _ => true
  | _ => false

/-- Whether the turn needs no hand of the host. -/
def Turn.isHandsOff : Turn → Bool
  | read | keep | pass _ | take => true
  | aside event => event.isOutside
  | _ => false

theorem Event.isAside_of_isOutside {event : Event} (h : event.isOutside = true) :
    event.isAside = true := by
  cases event <;> first
    | rfl
    | cases h

theorem Turn.isHandsOff_of_isBackground {t : Turn} (h : t.isBackground = true) :
    t.isHandsOff = true := by
  cases t <;> first
    | rfl
    | cases h

namespace Arm

/-- Between `a` and `b` the host had no hand in what happened. -/
structure HandsOff (a b : Arm) : Prop where
  sent : ∀ port, (b.bench.link port).sent = (a.bench.link port).sent
  running : b.feed.running = a.feed.running
  keeping : b.keeping = a.keeping
  dashboard : b.bench.dashboard.up = true → a.bench.dashboard.up = true
  reader : a.reader = none → b.reader = none
  status : a.reader = none → b.feed.status = a.feed.status
  realtime : a.reader = none → b.bench.realtime.up = true → a.bench.realtime.up = true
  keeper : a.keeper = none → b.keeper = none
  motion : a.keeper = none → b.bench.motion.up = true → a.bench.motion.up = true

theorem HandsOff.refl (a : Arm) : a.HandsOff a :=
  ⟨fun _ => rfl, rfl, rfl, id, id, fun _ => rfl, fun _ => id, id, fun _ => id⟩

theorem HandsOff.trans {a b c : Arm} (hab : a.HandsOff b) (hbc : b.HandsOff c) :
    a.HandsOff c where
  sent port := (hbc.sent port).trans (hab.sent port)
  running := hbc.running.trans hab.running
  keeping := hbc.keeping.trans hab.keeping
  dashboard h := hab.dashboard (hbc.dashboard h)
  reader h := hbc.reader (hab.reader h)
  status h := (hbc.status (hab.reader h)).trans (hab.status h)
  realtime h hup := hab.realtime h (hbc.realtime (hab.reader h) hup)
  keeper h := hbc.keeper (hab.keeper h)
  motion h hup := hab.motion h (hbc.motion (hab.keeper h) hup)

theorem handsOff_stepReader {a b : Arm} (h : a.stepReader = some b) : a.HandsOff b := by
  obtain ⟨r, r', feed, link, hr, hstep, rfl⟩ := stepReader_inv h
  have hnone {P : Prop} (hnone : a.reader = none) : P := by
    rw [hr] at hnone
    cases hnone
  refine ⟨fun port => ?_, (Reader.moves_of_step hstep).running_eq, rfl, id, hnone, hnone, hnone,
    id, fun _ => id⟩
  cases port with
  | realtime => exact Reader.sent_step hstep
  | dashboard | motion => rfl

theorem handsOff_stepKeeper {a b : Arm} (h : a.stepKeeper = some b) : a.HandsOff b := by
  obtain ⟨k, k', link, hk, hstep, rfl⟩ := stepKeeper_inv h
  have hnone {P : Prop} (hnone : a.keeper = none) : P := by
    rw [hk] at hnone
    cases hnone
  refine ⟨fun port => ?_, rfl, rfl, id, id, fun _ => rfl, fun _ => id, hnone, hnone⟩
  cases port with
  | motion => exact Keeper.sent_step hstep
  | dashboard | realtime => rfl

/-- What the other side does to a link. -/
theorem handsOff_update {f : Link → Link} (hf : ∀ link : Link, link.LeftAlone (f link))
    (a : Arm) (port : Port) : a.HandsOff { a with bench := a.bench.update port f } := by
  have hleft := Bench.leftAlone_update hf a.bench port
  exact ⟨fun other => (hleft other).sent, rfl, rfl, (hleft .dashboard).up, id, fun _ => rfl,
    fun _ => (hleft .realtime).up, id, fun _ => (hleft .motion).up⟩

theorem handsOff_happen (a : Arm) {event : Event} (h : event.isOutside = true) :
    a.HandsOff (a.happen event).2 := by
  cases event with
  | arrive port arrival => exact handsOff_update (Link.leftAlone_deliver arrival) a port
  | expect port dial => exact handsOff_update (Link.leftAlone_expect dial) a port
  | setFallback port fallback => exact handsOff_update (Link.leftAlone_fallback fallback) a port
  | failSend port text => exact handsOff_update (Link.leftAlone_failSend text) a port
  | drop port => exact handsOff_update Link.leftAlone_close a port
  | _ => cases h

theorem handsOff_turn (a : Arm) {t : Turn} (ht : t.isHandsOff = true) :
    a.HandsOff (a.turn t) := by
  cases t with
  | read =>
      rw [turn]
      cases h : a.stepReader with
      | none => exact .refl a
      | some b => exact handsOff_stepReader h
  | keep =>
      rw [turn]
      cases h : a.stepKeeper with
      | none => exact .refl a
      | some b => exact handsOff_stepKeeper h
  | aside event =>
      rw [turn, if_pos (Event.isAside_of_isOutside ht)]
      exact handsOff_happen a ht
  | pass | take => exact ⟨fun _ => rfl, rfl, rfl, id, id, fun _ => rfl, fun _ => id, id, fun _ => id⟩
  | sway | cut | start | lower | join => cases ht

theorem handsOff_course {a : Arm} {turns : List Turn}
    (hturns : ∀ t ∈ turns, t.isHandsOff = true) : a.HandsOff (a.course turns) := by
  induction turns generalizing a with
  | nil => exact .refl a
  | cons t rest ih =>
      exact (a.handsOff_turn (hturns t List.mem_cons_self)).trans
        (ih fun u hu => hturns u (List.mem_cons_of_mem t hu))

theorem Leads.handsOff {a b : Arm} (h : Leads Turn.isHandsOff a b) : a.HandsOff b := by
  obtain ⟨turns, hturns, rfl⟩ := h
  exact handsOff_course hturns

/-- In a session the host keeps its hands off what the other side does. -/
theorem leads_undergoAll (a : Arm) {events : List Event}
    (hevents : ∀ event ∈ events, event.isOutside = true) :
    Leads Turn.isHandsOff a (a.undergoAll events).2 := by
  induction events generalizing a with
  | nil => exact .refl _ a
  | cons event rest ih =>
      have hout := hevents event List.mem_cons_self
      have hturn : a.turn (.aside event) = (a.happen event).2 := by
        rw [turn, if_pos (Event.isAside_of_isOutside hout)]
      have hhappens := leads_turn (k := Turn.isHandsOff) a (t := .aside event) hout
      rw [hturn] at hhappens
      have hsettles := (leads_settle (a.happen event).2).mono fun _ =>
        Turn.isHandsOff_of_isBackground
      exact (hhappens.trans hsettles).trans
        (ih (a.undergo event).2 fun e he => hevents e (List.mem_cons_of_mem event he))

end Arm

end ArmLink
