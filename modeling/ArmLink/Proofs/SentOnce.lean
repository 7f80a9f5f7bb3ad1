import ArmLink.Proofs.Following
import ArmLink.Proofs.GaveUp
import ArmLink.Proofs.LineInFront
import ArmLink.Proofs.Shutdown

/-!
# What is sent

Every text on a link to the controller was put there by one call, and every call
puts at most one text there. What a call puts there can be said without running
it: a motion call its command if it came back without a failure, a call on the
dashboard its command if that is valid and the link takes it at that moment,
whatever the reply is. `Arm.texts` says this of an event, and the rest of this file
adds it up, over the events of a session with the work of the background in
between, and over all courses.

`Sending` goes with the sum. It says what was sent on every port and that nothing was
received on the motion port: what had arrived there is still there to be received.
Everything that is not a call is a `Sending` of nothing, starts and stops, dials and
the loss of links among it, so there is no place from which a text could come again.

A move that is waited for is sent before it is looked at, and its outcome tells
whether it was: following never ends in a rejection.
-/

namespace ArmLink

open ArmLink.Motion (Keeper Move)
open ArmLink.Robot (Pose)

namespace Link

/-- Whether the link takes a text that is sent now. -/
def takes (link : Link) : Bool :=
  link.up && link.sendFaults.isEmpty

theorem sent_send (text : String) (link : Link) :
    (link.send text).2.sent = link.sent ++ if link.takes then [text] else [] := by
  unfold send takes
  cases link.up with
  | false => exact (List.append_nil _).symm
  | true =>
      cases link.sendFaults with
      | nil => rfl
      | cons fault rest => exact (List.append_nil _).symm

theorem send_ok_iff (text : String) (link : Link) :
    (link.send text).1 = .ok () ↔ link.takes = true := by
  unfold send takes
  cases link.up with
  | false => simp
  | true => cases link.sendFaults <;> simp

theorem inbox_dial (link : Link) : link.dial.2.inbox = link.inbox := by
  unfold dial
  split
  · rfl
  · rfl
  · split <;> rfl

end Link

/-- A keeper does nothing with its link but dial it. -/
theorem Motion.Keeper.inbox_step {patience : Patience} {now : Nat} {keeping : Bool}
    {k k' : Keeper} {link link' : Link} (h : k.step patience now keeping link = some (k', link')) :
    link'.inbox = link.inbox := by
  have hdial := link.inbox_dial
  cases k with
  | dialing =>
      simp only [step] at h
      split at h
      all_goals try cases h
      all_goals
        next heq =>
          rw [heq] at hdial
          exact hdial
  | resting wake =>
      simp only [step] at h
      split at h
      · cases h
      · simp only [Option.some.injEq, Prod.mk.injEq] at h
        rw [← h.2]
  | finished => cases h
  | looking | probing =>
      simp only [step, Option.some.injEq, Prod.mk.injEq] at h
      rw [← h.2]

/-! ## Calls -/

theorem Dashboard.sent_readReplyFrom (command : String) (limit fuel : Nat) (got : List Char)
    (link : Link) : (readReplyFrom command limit fuel got link).2.sent = link.sent := by
  induction fuel generalizing got link with
  | zero => rfl
  | succ fuel ih =>
      have hreceive := link.sent_receive pieceSize
      rw [readReplyFrom]
      cases hreceived : link.receive pieceSize with
      | mk received next =>
          rw [hreceived] at hreceive
          cases received with
          | data bytes =>
              simp only
              split
              · exact hreceive
              · exact (ih _ _).trans hreceive
          | quiet | failed | waiting => exact hreceive

theorem Dashboard.sent_readReply (command : String) (limit : Nat) (link : Link) :
    (readReply command limit link).2.sent = link.sent := by
  rw [readReply]
  split
  · rfl
  · exact sent_readReplyFrom command limit _ _ link

/-- The texts that a call puts on the link. -/
def Command.texts (command : Command) (link : Link) : List String :=
  if command.check.isOk && link.takes then [command.text] else []

/-- A valid command is sent once if the link takes it, whatever the reply is. -/
theorem Dashboard.sent_call (limit : Nat) (command : Command) (b : Bench) :
    (call limit command b).2.dashboard.sent =
      b.dashboard.sent ++ command.texts b.dashboard := by
  rw [call, Command.texts]
  cases command.check with
  | error failure => exact (List.append_nil _).symm
  | ok =>
      have hsent := b.dashboard.sent_send command.text
      show _ = b.dashboard.sent ++ if b.dashboard.takes = true then [command.text] else []
      rw [← hsent, Bench.sendDashboard]
      cases b.dashboard.send command.text with
      | mk result dashboard =>
          cases result with
          | error failure => rfl
          | ok =>
              -- Behind the send nothing is added: not by the controller, not by the reading.
              have hheard := (Bench.leftAlone_heardDashboard { b with dashboard } command.text
                .dashboard).sent
              have hread := sent_readReply command.text limit
                (({ b with dashboard } : Bench).heardDashboard command.text).dashboard
              simp only
              split
              all_goals
                next heq =>
                  rw [heq] at hread
                  exact hread.trans hheard

theorem Dashboard.Request.sent_perform (limit : Nat) (request : Request) (b : Bench) :
    (request.perform limit b).2.dashboard.sent = b.dashboard.sent ++
      match request.command.toOption with
      | some command => command.texts b.dashboard
      | none => [] := by
  rw [perform]
  cases request.command with
  | error failure => exact (List.append_nil _).symm
  | ok command =>
      have hcall := sent_call limit command b
      simp only
      split <;> next heq =>
        rw [heq] at hcall
        exact hcall

theorem Dashboard.sent_faultTable (limit : Nat) (b : Bench) :
    (faultTable limit b).2.dashboard.sent =
      b.dashboard.sent ++ (Command.bare "GetErrorID").texts b.dashboard := by
  have hcall := sent_call limit (.bare "GetErrorID") b
  rw [faultTable]
  split <;> next heq =>
    rw [heq] at hcall
    exact hcall

theorem Bench.sent_sendMotion_error {b after : Bench} {text : String} {failure : Failure}
    (h : b.sendMotion text = (.error failure, after)) (port : Port) :
    (after.link port).sent = (b.link port).sent := by
  rw [sendMotion] at h
  split at h
  · cases h
  · next motion hsend =>
      obtain rfl := (Prod.mk.inj h).2
      cases port with
      | motion => exact (Link.send_error hsend).2
      | dashboard | realtime => rfl

theorem Bench.inbox_sendMotion (text : String) (b : Bench) :
    b.motion.inbox <+: (b.sendMotion text).2.motion.inbox := by
  have hinbox := Dashboard.inbox_send text b.motion
  rw [sendMotion]
  split
  · next motion hsend =>
      rw [hsend] at hinbox
      have hheard := (leftAlone_heardMotion { b with motion } .motion).inbox
      rw [← hinbox]
      exact hheard
  · next motion hsend =>
      rw [hsend] at hinbox
      exact hinbox ▸ List.prefix_rfl

/-! ## The arm -/

namespace Arm

/-- Between `a` and `b` these texts were sent on each port, and on the motion port nothing was
received. -/
structure Sending (a b : Arm) (texts : Port → List String) : Prop where
  sent : ∀ port, (b.bench.link port).sent = (a.bench.link port).sent ++ texts port
  unread : a.bench.motion.inbox <+: b.bench.motion.inbox

/-- Between `a` and `b` nothing was sent. -/
def Silence (a b : Arm) : Prop :=
  Sending a b fun _ => []

section

variable {a b c : Arm} {texts more : Port → List String}

theorem Sending.trans (hab : a.Sending b texts) (hbc : b.Sending c more) :
    a.Sending c fun port => texts port ++ more port where
  sent port := by rw [hbc.sent, hab.sent, List.append_assoc]
  unread := hab.unread.trans hbc.unread

theorem Sending.then (hab : a.Sending b texts) (hbc : b.Silence c) : a.Sending c texts where
  sent port := by rw [hbc.sent, hab.sent, List.append_nil]
  unread := hab.unread.trans hbc.unread

theorem silence_of_eq (hsent : ∀ port, (b.bench.link port).sent = (a.bench.link port).sent)
    (hinbox : a.bench.motion.inbox <+: b.bench.motion.inbox) : a.Silence b :=
  ⟨fun port => (hsent port).trans (List.append_nil _).symm, hinbox⟩

theorem Silence.refl (a : Arm) : a.Silence a :=
  silence_of_eq (fun _ => rfl) (List.prefix_refl _)

theorem Silence.trans (hab : a.Silence b) (hbc : b.Silence c) : a.Silence c :=
  Sending.then hab hbc

/-- What the other side does to a link. -/
theorem silence_update {f : Link → Link} (hf : ∀ link : Link, link.LeftAlone (f link)) (a : Arm)
    (port : Port) : a.Silence { a with bench := a.bench.update port f } :=
  silence_of_eq (fun other => (Bench.leftAlone_update hf a.bench port other).sent)
    (Bench.leftAlone_update hf a.bench port .motion).inbox

theorem silence_stepReader (h : a.stepReader = some b) : a.Silence b := by
  refine silence_of_eq (handsOff_stepReader h).sent ?_
  obtain ⟨_, _, _, _, -, -, rfl⟩ := stepReader_inv h
  exact List.prefix_refl _

theorem silence_stepKeeper (h : a.stepKeeper = some b) : a.Silence b := by
  refine silence_of_eq (handsOff_stepKeeper h).sent ?_
  obtain ⟨_, _, _, -, hstep, rfl⟩ := stepKeeper_inv h
  exact Keeper.inbox_step hstep ▸ List.prefix_rfl

theorem silence_background (a : Arm) {t : Turn} (ht : t.isBackground = true) :
    a.Silence (a.turn t) := by
  cases t with
  | read =>
      rw [turn]
      cases h : a.stepReader with
      | none => exact .refl a
      | some b => exact silence_stepReader h
  | keep =>
      rw [turn]
      cases h : a.stepKeeper with
      | none => exact .refl a
      | some b => exact silence_stepKeeper h
  | pass => exact silence_of_eq (fun _ => rfl) (List.prefix_refl _)
  | _ => cases ht

theorem Leads.silence (h : Leads Turn.isBackground a b) : a.Silence b := by
  obtain ⟨turns, hturns, rfl⟩ := h
  induction turns generalizing a with
  | nil => exact .refl a
  | cons t rest ih =>
      exact (a.silence_background (hturns t List.mem_cons_self)).trans
        (ih fun u hu => hturns u (List.mem_cons_of_mem t hu))

/-! ### The lifecycle -/

theorem silence_startKeeper (a : Arm) : a.Silence a.startKeeper := by
  rw [startKeeper]
  split
  · exact .refl a
  · exact silence_of_eq (fun _ => rfl) (List.prefix_refl _)

theorem silence_startReader (a : Arm) : a.Silence a.startReader := by
  rw [startReader]
  split
  · exact .refl a
  · exact silence_of_eq (fun _ => rfl) (List.prefix_refl _)

theorem silence_act (stage : Stage) (a : Arm) : a.Silence (stage.act a) := by
  refine silence_of_eq (stage.act_frame a).1 ?_
  cases stage with
  | showReader =>
      obtain ⟨status, -, hshow⟩ := lower_eq a
      have hsame : (Stage.showReader.act a).bench.motion.inbox = a.bench.motion.inbox := by
        rw [Stage.act, hshow]
      exact hsame ▸ List.prefix_rfl
  | _ => exact List.prefix_rfl

theorem silence_stopReader (a : Arm) : a.Silence a.stopReader := by
  have hflag := silence_act .lowerReader a
  have hcut := silence_act .cutReader (Stage.lowerReader.act a)
  have hruns : Silence _ a.stopping := (leads_runReader (k := Turn.isBackground) rfl _).silence
  have hjoin := silence_act .joinReader a.stopping
  have hagain := silence_act .cutAgain (Stage.joinReader.act a.stopping)
  have hshow := silence_act .showReader (Stage.cutAgain.act (Stage.joinReader.act a.stopping))
  exact ((((hflag.trans hcut).trans hruns).trans hjoin).trans hagain).trans hshow

theorem silence_stopKeeper (a : Arm) : a.Silence a.stopKeeper := by
  have hflag := silence_act .lowerKeeper a
  have hruns : Silence _ a.halting :=
    (leads_exhaust (k := Turn.isBackground) (t := .keep) (fun _ => rfl) rfl 16 _).silence
  have hjoin := silence_act .joinKeeper a.halting
  have hcut := silence_act .cutMotion (Stage.joinKeeper.act a.halting)
  exact ((hflag.trans hruns).trans hjoin).trans hcut

theorem silence_deactivate (a : Arm) : a.Silence a.deactivate :=
  (a.silence_stopReader.trans a.stopReader.silence_stopKeeper).trans
    (silence_act .cutDashboard a.stopReader.stopKeeper)

theorem silence_connect (a : Arm) : a.Silence (a.onBench Dashboard.connect).2 := by
  have hsent := a.bench.dashboard.sent_dial
  have hconnect : (Dashboard.connect a.bench).2 =
      { a.bench with dashboard := a.bench.dashboard.dial.2 } := by
    rw [Dashboard.connect]
    split <;> next heq => rw [heq]
  refine silence_of_eq (fun port => ?_) ?_
  · show ((Dashboard.connect a.bench).2.link port).sent = _
    rw [hconnect]
    cases port with
    | dashboard => exact hsent
    | motion | realtime => rfl
  · have hsame : (Dashboard.connect a.bench).2.motion.inbox = a.bench.motion.inbox := by
      rw [hconnect]
    exact hsame ▸ List.prefix_rfl

theorem silence_activate (a : Arm) : a.Silence a.activate.2 := by
  have hconnect := a.silence_connect
  rw [activate]
  split
  · next heq =>
      rw [heq] at hconnect
      exact hconnect
  · next b heq =>
      rw [heq] at hconnect
      exact ((hconnect.trans b.silence_startKeeper).trans b.startKeeper.silence_startReader).trans
        (leads_awaitLinks _ _ _).silence

end

end Arm

/-! ## Events -/

/-- Whether the event is a call on the dashboard or on the motion port. -/
def Event.isCall : Event → Bool
  | .request _ | .call _ | .faultReport | .move _ | .sendMotion _ => true
  | _ => false

/-- The command of a call on the dashboard, unless its arguments give none. -/
def Event.dashboardCommand? : Event → Option Command
  | .request asked => asked.command.toOption
  | .call command => some command
  | .faultReport => some (.bare "GetErrorID")
  | _ => none

/-- What a call puts on the motion port, given what came of it. -/
def Event.motionTexts : Event → Outturn → List String
  | .move sent, .done => [sent.command.text]
  | .sendMotion text, .done => [text]
  | _, _ => []

namespace Arm

/-- What an event puts on each port. -/
def texts (a : Arm) (event : Event) : Port → List String
  | .dashboard =>
    match event.dashboardCommand? with
    | some command => command.texts a.bench.dashboard
    | none => []
  | .motion => event.motionTexts (a.happen event).1
  | .realtime => []

theorem texts_of_not_isCall (a : Arm) {event : Event} (h : event.isCall = false) :
    a.texts event = fun _ => [] := by
  funext port
  cases port <;> cases event <;> first
    | rfl
    | cases h

theorem silence_happen (a : Arm) {event : Event} (h : event.isCall = false) :
    a.Silence (a.happen event).2 := by
  cases event with
  | request | call | faultReport | move | sendMotion => cases h
  | arrive port arrival => exact silence_update (Link.leftAlone_deliver arrival) a port
  | expect port dial => exact silence_update (Link.leftAlone_expect dial) a port
  | setFallback port fallback => exact silence_update (Link.leftAlone_fallback fallback) a port
  | failSend port text => exact silence_update (Link.leftAlone_failSend text) a port
  | drop port => exact silence_update Link.leftAlone_close a port
  | connectDashboard => exact a.silence_connect
  | disconnectDashboard => exact silence_act .cutDashboard a
  | startKeeper => exact a.silence_startKeeper
  | stopKeeper => exact a.silence_stopKeeper
  | startReader => exact a.silence_startReader
  | stopReader => exact a.silence_stopReader
  | activate => exact a.silence_activate
  | deactivate => exact a.silence_deactivate
  | setMessages table =>
      simp only [happen]
      split <;> exact silence_of_eq (fun _ => rfl) List.prefix_rfl
  | takeNotice | snapshot | readState | describe | address | refused =>
      exact silence_of_eq (fun _ => rfl) List.prefix_rfl

/-- A call on the dashboard concerns the other links as little as anything else does. -/
theorem sending_dashboard {α : Type} (a : Arm) {f : Bench → α × Bench}
    {texts : Port → List String}
    (hother : ∀ port ≠ .dashboard, (a.bench.link port).LeftAlone ((f a.bench).2.link port) ∧
      texts port = [])
    (hsent : (f a.bench).2.dashboard.sent = a.bench.dashboard.sent ++ texts .dashboard) :
    a.Sending (a.onBench f).2 texts := by
  refine ⟨fun port => ?_, (hother .motion (by decide)).1.inbox⟩
  by_cases hport : port = .dashboard
  · rw [hport]
    exact hsent
  · obtain ⟨hleft, hnone⟩ := hother port hport
    rw [hnone, List.append_nil]
    exact hleft.sent

theorem sending_sendMotion (a : Arm) (text : String) :
    a.Sending (a.happen (.sendMotion text)).2 (a.texts (.sendMotion text)) := by
  refine ⟨fun port => ?_, Bench.inbox_sendMotion text a.bench⟩
  have htexts : a.texts (.sendMotion text) port =
      match port, (a.bench.sendMotion text).1 with
      | .motion, .ok () => [text]
      | _, _ => [] := by
    cases port with
    | motion =>
        show Event.motionTexts _ (.ofUnit (a.bench.sendMotion text).1) = _
        cases (a.bench.sendMotion text).1 <;> rfl
    | dashboard | realtime => rfl
  show ((a.bench.sendMotion text).2.link port).sent = _
  rw [htexts]
  cases hsend : a.bench.sendMotion text with
  | mk result after =>
      cases result with
      | ok =>
          rw [Bench.sent_sendMotion hsend]
          cases port <;> rfl
      | error failure =>
          rw [Bench.sent_sendMotion_error hsend]
          cases port <;> exact (List.append_nil _).symm

/-- A move is the text of its command, if that is valid, and otherwise nothing. -/
theorem sending_move (a : Arm) (move : Move) :
    a.Sending (a.happen (.move move)).2 (a.texts (.move move)) := by
  cases hcheck : move.command.check with
  | ok =>
      have hsame : a.happen (.move move) = a.happen (.sendMotion move.command.text) := by
        simp only [happen, onBench, Move.send, hcheck]
      have htexts : a.texts (.move move) = a.texts (.sendMotion move.command.text) := by
        funext port
        cases port with
        | motion =>
            rw [texts, texts, hsame]
            cases (a.happen (.sendMotion move.command.text)).1 <;> rfl
        | dashboard | realtime => rfl
      rw [hsame, htexts]
      exact a.sending_sendMotion _
  | error failure =>
      have hrefused : a.happen (.move move) = (.failed failure, a) := by
        simp only [happen, onBench, Move.send, hcheck]
        rfl
      have htexts : a.texts (.move move) = fun _ => [] := by
        funext port
        cases port with
        | motion =>
            rw [texts, hrefused]
            rfl
        | dashboard | realtime => rfl
      rw [hrefused, htexts]
      exact Silence.refl a

theorem sending_happen (a : Arm) (event : Event) :
    a.Sending (a.happen event).2 (a.texts event) := by
  by_cases hcall : event.isCall = true
  · -- A call on the dashboard puts nothing on the other ports, whatever comes of it.
    have hnone (port : Port) (hport : port ≠ .dashboard)
        (hmotion : ∀ outturn, event.motionTexts outturn = []) : a.texts event port = [] := by
      cases port with
      | dashboard => exact absurd rfl hport
      | motion => exact hmotion _
      | realtime => rfl
    cases event with
    | call command =>
        exact sending_dashboard a
          (fun port hport =>
            ⟨Dashboard.leftAlone_call _ command _ hport, hnone port hport fun _ => rfl⟩)
          (Dashboard.sent_call _ command _)
    | request request =>
        exact sending_dashboard a
          (fun port hport =>
            ⟨Dashboard.Request.leftAlone_perform _ request _ hport,
              hnone port hport fun _ => rfl⟩)
          (Dashboard.Request.sent_perform _ request _)
    | faultReport =>
        exact sending_dashboard a
          (fun port hport =>
            ⟨Dashboard.leftAlone_faultTable _ _ hport, hnone port hport fun _ => rfl⟩)
          (Dashboard.sent_faultTable _ _)
    | move move => exact a.sending_move move
    | sendMotion text => exact a.sending_sendMotion text
    | _ => cases hcall
  · have hcall : event.isCall = false := Bool.eq_false_iff.2 hcall
    rw [a.texts_of_not_isCall hcall]
    exact a.silence_happen hcall

/-! ## Sessions -/

/-- What some events put on each port, with the work of the background behind each. -/
def textsOfEvents (a : Arm) : List Event → Port → List String
  | [], _ => []
  | event :: rest, port => a.texts event port ++ (a.undergo event).2.textsOfEvents rest port

/-- What a move that is waited for has put on the motion port, given its outcome. -/
def textsOfMove (target : Pose) : Except Failure Outcome → List String
  | .error _ | .ok (.rejected _) => []
  | .ok _ => [(Move.movL target).command.text]

/-- What a step of a session puts on each port. -/
def textsOfStep (a : Arm) : Step → Port → List String
  | .event event, port => a.texts event port
  | .moveAndWait target limit events, port =>
    (match port, (a.take (.moveAndWait target limit events)).1 with
      | .motion, .moved outcome _ => textsOfMove target outcome
      | _, _ => [])
    ++ (a.sendMove target).2.textsOfEvents (events.map Prod.snd) port

def textsOfSteps (a : Arm) : List Step → Port → List String
  | [], _ => []
  | step :: rest, port => a.textsOfStep step port ++ (a.take step).2.textsOfSteps rest port

def textsOfTurn (a : Arm) : Turn → Port → List String
  | .aside event, port => if event.isAside then a.texts event port else []
  | _, _ => []

/-- What a course puts on each port. -/
def textsOfTurns (a : Arm) : List Turn → Port → List String
  | [], _ => []
  | t :: rest, port => a.textsOfTurn t port ++ (a.turn t).textsOfTurns rest port

theorem silence_settle (a : Arm) : a.Silence a.settle :=
  (leads_settle a).silence

theorem sending_undergo (a : Arm) (event : Event) :
    a.Sending (a.undergo event).2 (a.texts event) :=
  (a.sending_happen event).then (silence_settle _)

theorem sending_undergoAll (a : Arm) (events : List Event) :
    a.Sending (a.undergoAll events).2 (a.textsOfEvents events) := by
  induction events generalizing a with
  | nil => exact Silence.refl a
  | cons event rest ih => exact (a.sending_undergo event).trans (ih _)

/-- A move that is followed comes to an outcome that says that it was sent. -/
theorem textsOfMove_follow (a : Arm) (target : Pose) (limit : Nat) (between : Nat → Arm → Arm) :
    textsOfMove target (.ok (a.follow target limit false between).1) =
      [(Move.movL target).command.text] := by
  obtain ⟨last, outcome, -, -, hends, hfollow⟩ := follow_first target limit between a
  rw [hfollow]
  cases hends <;> rfl

/-- A straight move is sent exactly if what comes of waiting for it is neither a failure nor a
rejection. -/
theorem sending_sendMove (a : Arm) (target : Pose) (limit : Nat) (between : Nat → Arm → Arm) :
    a.Sending (a.sendMove target).2 fun port =>
      match port with
      | .motion => textsOfMove target (a.moveAndWait target limit false between).1
      | _ => [] := by
  cases hreason : a.rejection? with
  | some reason =>
      have hsend : a.sendMove target = (.ok (some reason), a) := by rw [sendMove, hreason]
      rw [moveAndWait_of_rejected hsend, hsend]
      refine ⟨fun port => ?_, List.prefix_rfl⟩
      cases port <;> exact (List.append_nil _).symm
  | none =>
      have hsend : a.sendMove target = (((Move.movL target).send a.bench).1.map fun _ => none,
          (a.happen (.move (.movL target))).2) := by
        rw [sendMove, hreason]
        rfl
      have hsending := a.sending_move (.movL target)
      have htexts : a.texts (.move (.movL target)) = fun port =>
          match port with
          | .motion => textsOfMove target (a.moveAndWait target limit false between).1
          | _ => [] := by
        funext port
        cases port with
        | dashboard | realtime => rfl
        | motion =>
            show Event.motionTexts _ (.ofUnit ((Move.movL target).send a.bench).1) = textsOfMove _ _
            cases hresult : ((Move.movL target).send a.bench).1 with
            | ok =>
                rw [hresult] at hsend
                rw [moveAndWait_of_sent hsend, textsOfMove_follow]
                rfl
            | error failure =>
                rw [hresult] at hsend
                rw [moveAndWait_of_error hsend]
                rfl
      rw [hsend, ← htexts]
      exact hsending

theorem sending_take (a : Arm) (step : Step) :
    a.Sending (a.take step).2 (a.textsOfStep step) := by
  cases step with
  | event event => exact a.sending_undergo event
  | moveAndWait target limit events =>
      have hmove := a.sending_sendMove target limit fun look a =>
        (undergoAll a (eventsAfter look (inOrder 0 events))).2
      have hevents := (a.sendMove target).2.sending_undergoAll (events.map Prod.snd)
      have hall := (hmove.trans hevents).then (silence_settle _)
      -- The looks in between change nothing: the events come in the order of their times.
      have htake : (a.take (.moveAndWait target limit events)).2 =
          ((a.sendMove target).2.undergoAll (events.map Prod.snd)).2.settle := by
        rw [take, ← map_snd_inOrder 0 events]
      rw [htake]
      refine ⟨fun port => (hall.sent port).trans ?_, hall.unread⟩
      cases port <;> rfl

theorem sending_takeAll (a : Arm) (steps : List Step) :
    a.Sending (((a.takeAll steps).map Prod.snd).getLastD a) (a.textsOfSteps steps) := by
  induction steps generalizing a with
  | nil => exact Silence.refl a
  | cons step rest ih =>
      rw [takeAll, List.map_cons, List.getLastD_cons]
      exact (a.sending_take step).trans (ih _)

theorem sending_turn (a : Arm) {t : Turn} (hsway : ∀ link, t ≠ .sway link) :
    a.Sending (a.turn t) (a.textsOfTurn t) := by
  cases t with
  | sway link => exact absurd rfl (hsway link)
  | read | keep | pass => exact a.silence_background rfl
  | cut => exact silence_update Link.leftAlone_close a .realtime
  | take | lower => exact silence_of_eq (fun _ => rfl) List.prefix_rfl
  | start => exact a.silence_startReader
  | aside event =>
      rw [turn]
      by_cases haside : event.isAside = true
      · have htexts : a.textsOfTurn (.aside event) = a.texts event := by
          funext port
          rw [textsOfTurn, if_pos haside]
        rw [if_pos haside, htexts]
        exact a.sending_happen event
      · have htexts : a.textsOfTurn (.aside event) = fun _ => [] := by
          funext port
          rw [textsOfTurn, if_neg haside]
        rw [if_neg haside, htexts]
        exact Silence.refl a
  | join =>
      rw [turn]
      split
      · have hjoin := silence_act .joinReader a
        have hcut := silence_act .cutAgain (Stage.joinReader.act a)
        exact (hjoin.trans hcut).trans
          (silence_act .showReader (Stage.cutAgain.act (Stage.joinReader.act a)))
      · exact Silence.refl a

theorem sending_course (a : Arm) {turns : List Turn} (hsway : ∀ link, .sway link ∉ turns) :
    a.Sending (a.course turns) (a.textsOfTurns turns) := by
  induction turns generalizing a with
  | nil => exact Silence.refl a
  | cons t rest ih =>
      have hturn := a.sending_turn (t := t) fun link ht => hsway link (ht ▸ List.mem_cons_self)
      exact hturn.trans (ih _ fun link hlink => hsway link (List.mem_cons_of_mem t hlink))

/-- Over a session, each port has been sent, in order and once, what the calls put there and nothing
else, whatever goes on in the background and is lost or dialed again. The same holds of every course
in which the other side acts through events. What has arrived on the motion port stays there. -/
theorem each_call_is_sent_once (a : Arm) :
    (∀ steps,
      let after := ((a.takeAll steps).map Prod.snd).getLastD a
      (∀ port, (after.bench.link port).sent =
          (a.bench.link port).sent ++ a.textsOfSteps steps port) ∧
        a.bench.motion.inbox <+: after.bench.motion.inbox) ∧
    ∀ turns, (∀ link, .sway link ∉ turns) →
      let after := a.course turns
      (∀ port, (after.bench.link port).sent =
          (a.bench.link port).sent ++ a.textsOfTurns turns port) ∧
        a.bench.motion.inbox <+: after.bench.motion.inbox := by
  refine ⟨fun steps => ?_, fun turns hsway => ?_⟩
  · obtain ⟨hsent, hunread⟩ := a.sending_takeAll steps
    exact ⟨hsent, hunread⟩
  · obtain ⟨hsent, hunread⟩ := a.sending_course hsway
    exact ⟨hsent, hunread⟩

end Arm

end ArmLink
