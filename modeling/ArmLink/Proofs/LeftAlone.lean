import ArmLink.Session

/-!
# Links that the host leaves alone

Almost everything a host does concerns one link, and the others are then in the
hands of the other side: things arrive on them, it is laid down how dials and
sends will end, they are taken down. `LeftAlone` says that a link has gone
through nothing but that. What arrived before is still there to be received, no
dial has been answered and none that was laid down has been used up, nothing has
been sent, and a link that was down is down.

The lemmas go once through everything an arm can do. What comes out at the end
is `Spares`: every event of a session that is not about the reader itself leaves
the reader, what it shares and its link alone. A theorem about the reader is
therefore free to let the rest of the program do what it likes in between.
-/

namespace ArmLink

/-- Nothing has been received, dialed or sent on a link, and it has not come up. -/
structure Link.LeftAlone (before after : Link) : Prop where
  inbox : before.inbox <+: after.inbox
  dials : before.dials <+: after.dials
  tries : after.tries = before.tries
  sent : after.sent = before.sent
  up : after.up = true → before.up = true

namespace Link

theorem LeftAlone.refl (link : Link) : link.LeftAlone link :=
  ⟨List.prefix_refl _, List.prefix_refl _, rfl, rfl, id⟩

theorem LeftAlone.trans {a b c : Link} (hab : a.LeftAlone b) (hbc : b.LeftAlone c) :
    a.LeftAlone c where
  inbox := hab.inbox.trans hbc.inbox
  dials := hab.dials.trans hbc.dials
  tries := hbc.tries.trans hab.tries
  sent := hbc.sent.trans hab.sent
  up h := hab.up (hbc.up h)

theorem leftAlone_close (link : Link) : link.LeftAlone link.close :=
  ⟨List.prefix_refl _, List.prefix_refl _, rfl, rfl, fun h => nomatch h⟩

theorem leftAlone_deliver (arrival : Arrival) (link : Link) :
    link.LeftAlone (link.deliver arrival) :=
  ⟨List.prefix_append _ _, List.prefix_refl _, rfl, rfl, id⟩

theorem leftAlone_expect (dial : Dial) (link : Link) : link.LeftAlone (link.expect dial) :=
  ⟨List.prefix_refl _, List.prefix_append _ _, rfl, rfl, id⟩

theorem leftAlone_failSend (text : String) (link : Link) :
    link.LeftAlone (link.failSend text) :=
  ⟨List.prefix_refl _, List.prefix_refl _, rfl, rfl, id⟩

theorem leftAlone_fallback (fallback : Fallback) (link : Link) :
    link.LeftAlone { link with fallback } :=
  ⟨List.prefix_refl _, List.prefix_refl _, rfl, rfl, id⟩

end Link

/-! ## On the bench

A command on one port may make the controller do things on every port, and all
of them are things the other side does. -/

namespace Bench

theorem link_dashboard {b : Bench} {dashboard : Link} {port : Port} (hport : port ≠ .dashboard) :
    ({ b with dashboard } : Bench).link port = b.link port := by
  cases port with
  | dashboard => exact absurd rfl hport
  | motion | realtime => rfl

theorem link_motion {b : Bench} {motion : Link} {port : Port} (hport : port ≠ .motion) :
    ({ b with motion } : Bench).link port = b.link port := by
  cases port with
  | motion => exact absurd rfl hport
  | dashboard | realtime => rfl

/-- What is done to one link by the other side leaves every link alone. -/
theorem leftAlone_update {f : Link → Link} (hf : ∀ link : Link, link.LeftAlone (f link))
    (b : Bench) (port other : Port) :
    (b.link other).LeftAlone ((b.update port f).link other) := by
  cases port <;> cases other <;> first
    | exact hf _
    | exact .refl _

theorem leftAlone_suffer (b : Bench) (stimulus : Stimulus) (port : Port) :
    (b.link port).LeftAlone ((b.suffer stimulus).link port) := by
  cases stimulus with
  | frame bytes => exact leftAlone_update (Link.leftAlone_deliver _) b _ port
  | drop other => exact leftAlone_update Link.leftAlone_close b other port
  | refuse other text => exact leftAlone_update (Link.leftAlone_expect _) b other port

theorem leftAlone_sufferAll (stimuli : List Stimulus) (b : Bench) (port : Port) :
    (b.link port).LeftAlone ((stimuli.foldl suffer b).link port) := by
  induction stimuli generalizing b with
  | nil => exact .refl _
  | cons stimulus rest ih =>
      rw [List.foldl_cons]
      exact (leftAlone_suffer b stimulus port).trans (ih _)

theorem leftAlone_heardDashboard (b : Bench) (command : String) (port : Port) :
    (b.link port).LeftAlone ((b.heardDashboard command).link port) := by
  rw [heardDashboard]
  simp only
  split
  · rename_i text _
    have hanswer := leftAlone_update (Link.leftAlone_deliver (.bytes (Text.Utf8.encode text)))
      { b with controller := (b.controller.answer command).2 } .dashboard port
    refine Link.LeftAlone.trans ?_ (leftAlone_sufferAll _ _ port)
    cases port <;> exact hanswer
  · refine Link.LeftAlone.trans ?_ (leftAlone_sufferAll _ _ port)
    cases port <;> exact .refl _

theorem leftAlone_heardMotion (b : Bench) (port : Port) :
    (b.link port).LeftAlone (b.heardMotion.link port) :=
  leftAlone_sufferAll _ _ port

theorem leftAlone_sendDashboard (b : Bench) (command : String) {port : Port}
    (hport : port ≠ .dashboard) :
    (b.link port).LeftAlone ((b.sendDashboard command).2.link port) := by
  rw [sendDashboard]
  split
  · rename_i dashboard _
    have h := leftAlone_heardDashboard { b with dashboard } command port
    rw [link_dashboard hport] at h
    exact h
  · simp only [link_dashboard hport]
    exact .refl _

theorem leftAlone_sendMotion (b : Bench) (command : String) {port : Port}
    (hport : port ≠ .motion) :
    (b.link port).LeftAlone ((b.sendMotion command).2.link port) := by
  rw [sendMotion]
  split
  · rename_i motion _
    have h := leftAlone_heardMotion { b with motion } port
    rw [link_motion hport] at h
    exact h
  · simp only [link_motion hport]
    exact .refl _

end Bench

/-! ## On the dashboard and the motion port -/

theorem Dashboard.leftAlone_call (limit : Nat) (command : Command) (b : Bench) {port : Port}
    (hport : port ≠ .dashboard) :
    (b.link port).LeftAlone ((call limit command b).2.link port) := by
  have hsent := Bench.leftAlone_sendDashboard b command.text hport
  rw [call]
  split
  · exact .refl _
  · split
    · rename_i hsend
      rw [hsend] at hsent
      exact hsent
    · rename_i hsend
      rw [hsend] at hsent
      split <;> simp only [Bench.link_dashboard hport] <;> exact hsent

theorem Dashboard.Request.leftAlone_perform (limit : Nat) (request : Request) (b : Bench)
    {port : Port} (hport : port ≠ .dashboard) :
    (b.link port).LeftAlone ((request.perform limit b).2.link port) := by
  rw [perform]
  split
  · exact .refl _
  · rename_i command _
    have hcall := leftAlone_call limit command b hport
    split <;> rename_i heq <;> rw [heq] at hcall <;> exact hcall

theorem Dashboard.leftAlone_faultTable (limit : Nat) (b : Bench) {port : Port}
    (hport : port ≠ .dashboard) :
    (b.link port).LeftAlone ((faultTable limit b).2.link port) := by
  have hcall := leftAlone_call limit (.bare "GetErrorID") b hport
  rw [faultTable]
  split <;> rename_i heq <;> rw [heq] at hcall <;> exact hcall

theorem Motion.Move.leftAlone_send (move : Move) (b : Bench) {port : Port}
    (hport : port ≠ .motion) : (b.link port).LeftAlone ((move.send b).2.link port) := by
  rw [send]
  split
  · exact .refl _
  · exact Bench.leftAlone_sendMotion b _ hport

/-! ## The arm

`Spares` is about the realtime link alone. The reader, its flag, its status, the
snapshot and the notice are shared with nobody but the lifecycle, so an event
that is not one of those cannot reach them. -/

namespace Arm

/-- What is done between `a` and `b` does not concern the reading of telemetry. -/
structure Spares (a b : Arm) : Prop where
  config : b.config = a.config
  reader : b.reader = a.reader
  feed : b.feed = a.feed
  realtime : a.bench.realtime.LeftAlone b.bench.realtime

theorem Spares.refl (a : Arm) : a.Spares a := ⟨rfl, rfl, rfl, .refl _⟩

theorem Spares.trans {a b c : Arm} (hab : a.Spares b) (hbc : b.Spares c) : a.Spares c :=
  ⟨hbc.config.trans hab.config, hbc.reader.trans hab.reader, hbc.feed.trans hab.feed,
    hab.realtime.trans hbc.realtime⟩

/-- What every step keeps is kept by steps taken as long as there are any. -/
theorem exhaust_keeps {P : Arm → Prop} {step : Arm → Option Arm}
    (hstep : ∀ a b, step a = some b → P a → P b) (fuel : Nat) {a : Arm} (ha : P a) :
    P (exhaust step fuel a) := by
  induction fuel generalizing a with
  | zero => exact ha
  | succ fuel ih =>
      rw [exhaust]
      split
      · rename_i next hnext
        exact ih (hstep a next hnext ha)
      · exact ha

/-- A step of the arm's reader is a step of the reader on what it shares and its link. -/
theorem stepReader_inv {a b : Arm} (h : a.stepReader = some b) :
    ∃ r r' feed link, a.reader = some r ∧
      r.step a.config.patience a.clock a.feed a.bench.realtime = some (r', feed, link) ∧
      b = { a with reader := some r', feed, bench := { a.bench with realtime := link } } := by
  rw [stepReader] at h
  simp only [Option.bind_eq_bind, Option.bind_eq_some_iff] at h
  obtain ⟨r, hr, ⟨r', feed, link⟩, hstep, hb⟩ := h
  exact ⟨r, r', feed, link, hr, hstep, (Option.some.inj hb).symm⟩

/-- A step of the arm's keeper is a step of the keeper on its link. -/
theorem stepKeeper_inv {a b : Arm} (h : a.stepKeeper = some b) :
    ∃ k k' link, a.keeper = some k ∧
      k.step a.config.patience a.clock a.keeping a.bench.motion = some (k', link) ∧
      b = { a with keeper := some k', bench := { a.bench with motion := link } } := by
  rw [stepKeeper] at h
  simp only [Option.bind_eq_bind, Option.bind_eq_some_iff] at h
  obtain ⟨k, hk, ⟨k', link⟩, hstep, hb⟩ := h
  exact ⟨k, k', link, hk, hstep, (Option.some.inj hb).symm⟩

theorem spares_stepKeeper {a b : Arm} (h : a.stepKeeper = some b) : a.Spares b := by
  obtain ⟨_, _, _, -, -, rfl⟩ := stepKeeper_inv h
  exact ⟨rfl, rfl, rfl, .refl _⟩

theorem spares_runKeeper (a : Arm) : a.Spares a.runKeeper :=
  exhaust_keeps (P := a.Spares) (fun _ _ h ha => ha.trans (spares_stepKeeper h)) 16 (.refl a)

theorem spares_stopKeeper (a : Arm) : a.Spares a.stopKeeper := by
  have h := spares_runKeeper { a with keeping := false }
  exact ⟨h.config, h.reader, h.feed, h.realtime⟩

theorem spares_startKeeper (a : Arm) : a.Spares a.startKeeper := by
  rw [startKeeper]
  split
  · exact .refl a
  · exact ⟨rfl, rfl, rfl, .refl _⟩

/-- What is done on the bench spares the reader as far as it leaves the realtime link alone. -/
theorem spares_onBench {α : Type} {f : Bench → α × Bench} {a : Arm}
    (h : (a.bench.link .realtime).LeftAlone ((f a.bench).2.link .realtime)) :
    a.Spares (a.onBench f).2 :=
  ⟨rfl, rfl, rfl, h⟩

theorem spares_connectDashboard (a : Arm) : a.Spares (a.onBench Dashboard.connect).2 := by
  refine spares_onBench ?_
  rw [Dashboard.connect]
  split <;> exact .refl _

theorem spares_faultReport (a : Arm) : a.Spares a.faultReport.2 :=
  spares_onBench (Dashboard.leftAlone_faultTable _ _ (by decide))

end Arm

/-- Whether an event is about neither the reader nor what it shares with others. -/
def Event.isAside : Event → Bool
  | .startReader | .stopReader | .takeNotice | .activate | .deactivate => false
  | _ => true

namespace Arm

/-- Whatever else happens to an arm, its reader goes on as if it had not. -/
theorem spares_happen (a : Arm) {event : Event} (h : event.isAside = true) :
    a.Spares (a.happen event).2 := by
  have hport {f : Link → Link} (hf : ∀ link : Link, link.LeftAlone (f link)) (port : Port) :
      a.Spares { a with bench := a.bench.update port f } :=
    ⟨rfl, rfl, rfl, Bench.leftAlone_update hf a.bench port .realtime⟩
  cases event with
  | startReader | stopReader | takeNotice | activate | deactivate => cases h
  | arrive port arrival => exact hport (Link.leftAlone_deliver arrival) port
  | expect port dial => exact hport (Link.leftAlone_expect dial) port
  | setFallback port fallback => exact hport (Link.leftAlone_fallback fallback) port
  | failSend port text => exact hport (Link.leftAlone_failSend text) port
  | drop port => exact hport Link.leftAlone_close port
  | connectDashboard => exact spares_connectDashboard a
  | request request =>
      exact spares_onBench (Dashboard.Request.leftAlone_perform _ request _ (by decide))
  | call command => exact spares_onBench (Dashboard.leftAlone_call _ command _ (by decide))
  | move move => exact spares_onBench (Motion.Move.leftAlone_send move _ (by decide))
  | sendMotion text => exact spares_onBench (Bench.leftAlone_sendMotion _ text (by decide))
  | startKeeper => exact spares_startKeeper a
  | stopKeeper => exact spares_stopKeeper a
  | faultReport => exact spares_faultReport a
  | setMessages table =>
      simp only [happen]
      split <;> exact ⟨rfl, rfl, rfl, .refl _⟩
  | disconnectDashboard | snapshot | readState | describe | address | refused =>
      exact ⟨rfl, rfl, rfl, .refl _⟩

end Arm

end ArmLink
