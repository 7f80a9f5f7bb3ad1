import ArmLink.Proofs.SentOnce
import ArmLink.Proofs.WatchCourse

/-!
# What a watch sends

A watch may ask an arm for its faults and clear them, and nothing else. `Puts` gives
the grounds for each of the two: the faults are asked for when the links are up and
the mode says that there are some, and they are cleared when that very query was
answered, without an error, by a table that has some. The reply that counts is the
one the call took, whatever the controller meant by it.

An `Account` goes through a course moment by moment and says of each what it added
to the log. So it is not enough that each text of the log is one of the two: a
clearing has the query right in front of it, in the same look, and a look whose query
failed has none. That only looks at the faults send is the other half, and it comes
from `Silence`, which is kept by everything else that happens to an arm.
-/

namespace ArmLink

open ArmLink.Dashboard (Request)

/-- Texts that were sent on the dashboard, and none on another port. -/
def onDashboard (texts : List String) : Port → List String
  | .dashboard => texts
  | _ => []

theorem onDashboard_append (texts more : List String) (port : Port) :
    onDashboard texts port ++ onDashboard more port = onDashboard (texts ++ more) port := by
  cases port <;> rfl

/-- A command without arguments is sent as it is or not at all. -/
theorem Command.texts_bare (name : String) (link : Link) :
    (Command.bare name).texts link = [] ∨ (Command.bare name).texts link = [(bare name).text] := by
  rw [Command.texts]
  split
  · exact .inr rfl
  · exact .inl rfl

/-- A report that lists a fault comes from a table that has one. -/
theorem Fault.Report.hasFaults_of_ofTable {describe : Int → Option String} {table : Fault.Table}
    (h : (ofTable describe table).isEmpty = false) : table.hasFaults = true := by
  obtain ⟨fault, hfault⟩ := List.exists_mem_of_ne_nil _ (List.isEmpty_eq_false_iff.1 h)
  obtain ⟨⟨slot, ids⟩, hslot, -⟩ := List.mem_flatMap.1 hfault
  obtain ⟨⟨ids, slot⟩, hin, heq⟩ := List.mem_map.1 hslot
  obtain ⟨hindexed, hsome⟩ := List.mem_filter.1 hin
  exact List.any_eq_true.2 ⟨ids, List.fst_mem_of_mem_zipIdx hindexed, hsome⟩

/-! ## The arm -/

namespace Arm

theorem Silence.onDashboard {a b : Arm} (h : a.Silence b) : a.Sending b (onDashboard []) :=
  ⟨fun port => (h.sent port).trans (by cases port <;> rfl), h.unread⟩

theorem isCall_of_isOutside {event : Event} (h : event.isOutside = true) :
    event.isCall = false := by
  cases event <;> first
    | rfl
    | cases h

theorem silence_beside (a : Arm) (other : Beside) : a.Silence (a.beside other) := by
  cases other with
  | mind controller => exact silence_of_eq (fun port => by cases port <;> rfl) List.prefix_rfl
  | turn t =>
      rw [beside]
      split
      · next hoff =>
          cases t with
          | read | keep | pass => exact a.silence_background rfl
          | take => exact silence_of_eq (fun _ => rfl) List.prefix_rfl
          | aside event =>
              rw [turn, if_pos (Event.isAside_of_isOutside hoff)]
              exact a.silence_happen (isCall_of_isOutside hoff)
          | sway | cut | start | lower | join => cases hoff
      · exact .refl a

theorem silence_meanwhile (a : Arm) (going : List Beside) : a.Silence (a.meanwhile going) := by
  induction going generalizing a with
  | nil => exact .refl a
  | cons other rest ih => exact (a.silence_beside other).trans (ih _)

theorem silence_mend (a : Arm) (steps : List Mending) : a.Silence (a.mend steps) := by
  induction steps generalizing a with
  | nil => exact .refl a
  | cons step rest ih =>
      refine Silence.trans ?_ (ih (a.mendStep step))
      cases step with
      | stage stage => exact silence_act stage a
      | connect => exact a.silence_connect
      | startKeeper => exact a.silence_startKeeper
      | startReader => exact a.silence_startReader
      | beside other => exact a.silence_beside other

theorem sending_faultReport (a : Arm) : a.Sending a.faultReport.2
    (onDashboard ((Command.bare "GetErrorID").texts a.bench.dashboard)) := by
  have hsending := a.sending_happen .faultReport
  have htexts : a.texts .faultReport =
      onDashboard ((Command.bare "GetErrorID").texts a.bench.dashboard) := by
    funext port
    cases port <;> rfl
  rw [htexts] at hsending
  exact hsending

theorem sending_clearError (a : Arm) :
    a.Sending (a.onBench (Request.clearError.perform a.config.patience.reply)).2
      (onDashboard ((Command.bare "ClearError").texts a.bench.dashboard)) := by
  have hsending := a.sending_happen (.request .clearError)
  have htexts : a.texts (.request .clearError) =
      onDashboard ((Command.bare "ClearError").texts a.bench.dashboard) := by
    funext port
    cases port <;> rfl
  rw [htexts] at hsending
  exact hsending

/-- A report that was read is that of a table in a reply that was accepted. -/
theorem faultReport_ok {a : Arm} {report : Fault.Report} (h : a.faultReport.1 = .ok report) :
    ∃ reply table,
      (Dashboard.call a.config.patience.reply (.bare "GetErrorID") a.bench).1 = .ok reply ∧
        Request.readTable reply = .ok table ∧ report = Fault.Report.ofTable a.describe table := by
  have hmap : (Dashboard.faultTable a.config.patience.reply a.bench).1.map
      (Fault.Report.ofTable a.describe) = .ok report := h
  rw [Dashboard.faultTable] at hmap
  split at hmap
  · next reply _ hcall =>
      simp only at hmap
      cases hread : Request.readTable reply with
      | error failure =>
          rw [hread] at hmap
          cases hmap
      | ok table =>
          rw [hread] at hmap
          exact ⟨reply, table, by rw [hcall], hread, (Except.ok.inj hmap).symm⟩
  · cases hmap

end Arm

/-- A call that was accepted has sent its command, and its reply says that it was. -/
theorem Dashboard.sent_of_call_ok {limit : Nat} {command : Command} {b : Bench} {reply : Reply}
    (h : (call limit command b).1 = .ok reply) :
    command.texts b.dashboard = [command.text] ∧ reply.status = 0 := by
  obtain ⟨after, line, sends, -, haccept⟩ := (call_eq_iff fun _ h => (by cases h)).1 h
  have htakes : b.dashboard.takes = true := by
    refine (Link.send_ok_iff command.text b.dashboard).1 ?_
    have hsent := sends.sent
    rw [Bench.sendDashboard] at hsent
    split at hsent
    · next hsend => rw [hsend]
    · cases hsent
  refine ⟨?_, (accept_ok_iff.1 haccept).2⟩
  rw [Command.texts, sends.valid, htakes]
  rfl

namespace Watch

/-- What a watch puts on the dashboard at a moment, with the grounds it has for it. -/
inductive Puts (w : Watch) : Moment → List String → Prop where
  | nothing (m : Moment) : Puts w m []
  | query {i : Interludes} (well : w.arm.isWell = true)
      (faulty : (w.checking i).isInMode .error = true) : Puts w (.faults i) ["GetErrorID()"]
  | clear {i : Interludes} {reply : Reply} {table : Fault.Table} (well : w.arm.isWell = true)
      (faulty : (w.checking i).isInMode .error = true)
      (answered : (Dashboard.call (w.querying i).config.patience.reply (.bare "GetErrorID")
        (w.querying i).bench).1 = .ok reply)
      (accepted : reply.status = 0) (read : Request.readTable reply = .ok table)
      (faults : table.hasFaults = true) : Puts w (.faults i) ["GetErrorID()", "ClearError()"]

/-- What a course puts on the dashboard, moment by moment. -/
inductive Account : Watch → List Moment → List String → Prop where
  | nil {w : Watch} : Account w [] []
  | cons {w : Watch} {m : Moment} {rest : List Moment} {texts more : List String}
      (puts : Puts w m texts)
      (sent : (w.live m).arm.bench.dashboard.sent = w.arm.bench.dashboard.sent ++ texts)
      (others : Account (w.live m) rest more) : Account w (m :: rest) (texts ++ more)

theorem arm_tellFaults (w : Watch) (report : Fault.Report) :
    (w.tellFaults report).arm = w.arm := by
  simp only [tellFaults]
  split <;> rfl

theorem arm_lookAtJoints (w : Watch) : w.lookAtJoints.arm = w.arm := by
  rw [lookAtJoints]
  split
  · simp only
    split <;> rfl
  · rfl

theorem arm_lookAtMode (w : Watch) : w.lookAtMode.arm = w.arm := by
  rw [lookAtMode]
  split
  · simp only
    split <;> rfl
  · rfl

theorem sending_query (w : Watch) (i : Interludes) :
    w.arm.Sending (w.querying i).faultReport.2
      (onDashboard ((Command.bare "GetErrorID").texts (w.querying i).bench.dashboard)) :=
  have hbefore := (w.arm.silence_meanwhile i.atLinks).trans
    ((w.checking i).silence_meanwhile i.atMode)
  Arm.Sending.trans hbefore (w.querying i).sending_faultReport

theorem sending_clearing (w : Watch) (i : Interludes) :
    w.arm.Sending (w.cleared i).2
      (onDashboard ((Command.bare "GetErrorID").texts (w.querying i).bench.dashboard ++
        (Command.bare "ClearError").texts (w.clearing i).bench.dashboard)) := by
  have hquery := (w.sending_query i).then (Arm.silence_meanwhile _ i.atQuery)
  have hclear := hquery.trans (w.clearing i).sending_clearError
  exact ⟨fun port => (hclear.sent port).trans (by rw [onDashboard_append]), hclear.unread⟩

/-- A look at the faults sends what it has grounds for. -/
theorem sends_faults (w : Watch) (i : Interludes) :
    ∃ texts, Puts w (.faults i) texts ∧
      w.arm.Sending (w.lookAtFaultsAmid i).arm (onDashboard texts) := by
  have hquery := w.sending_query i
  have hclear := w.sending_clearing i
  rw [lookAtFaultsAmid]
  split
  · next well =>
      split
      · next faulty =>
          -- Whatever comes of the query, it was asked for on good grounds.
          have hasked : ∃ texts, Puts w (.faults i) texts ∧
              w.arm.Sending (w.querying i).faultReport.2 (onDashboard texts) := by
            rcases Command.texts_bare "GetErrorID" (w.querying i).bench.dashboard with hq | hq <;>
              rw [hq] at hquery
            · exact ⟨_, .nothing _, hquery⟩
            · exact ⟨_, .query well faulty, hquery⟩
          split
          · exact hasked
          · next report hreport =>
              split
              · rw [arm_tellFaults]
                exact hasked
              · next hfaults =>
                  obtain ⟨reply, table, hcall, hread, rfl⟩ := Arm.faultReport_ok hreport
                  obtain ⟨hsent, haccepted⟩ := Dashboard.sent_of_call_ok hcall
                  have htable := Fault.Report.hasFaults_of_ofTable (Bool.eq_false_iff.2 hfaults)
                  rw [hsent] at hclear
                  have hboth : ∃ texts, Puts w (.faults i) texts ∧
                      w.arm.Sending (w.cleared i).2 (onDashboard texts) := by
                    rcases Command.texts_bare "ClearError" (w.clearing i).bench.dashboard with
                      hc | hc <;> rw [hc] at hclear
                    · exact ⟨_, .query well faulty, hclear⟩
                    · exact ⟨_, .clear well faulty hcall haccepted hread htable, hclear⟩
                  split
                  · rw [arm_tellFaults]
                    exact hboth
                  · exact hboth
      · rw [arm_tellFaults]
        exact ⟨_, .nothing _, (w.arm.silence_meanwhile i.atLinks).onDashboard⟩
  · exact ⟨_, .nothing _, (Arm.Silence.refl w.arm).onDashboard⟩

theorem sends_live (w : Watch) (m : Moment) :
    ∃ texts, Puts w m texts ∧ w.arm.Sending (w.live m).arm (onDashboard texts) := by
  cases m with
  | joints =>
      rw [live, arm_lookAtJoints]
      exact ⟨_, .nothing _, (Arm.Silence.refl w.arm).onDashboard⟩
  | mode =>
      rw [live, arm_lookAtMode]
      exact ⟨_, .nothing _, (Arm.Silence.refl w.arm).onDashboard⟩
  | faults interludes => exact w.sends_faults interludes
  | mend steps retry => exact ⟨_, .nothing _, (w.arm.silence_mend steps).onDashboard⟩
  | beside other => exact ⟨_, .nothing _, (w.arm.silence_beside other).onDashboard⟩

theorem sends_course (w : Watch) (moments : List Moment) :
    ∃ log, Account w moments log ∧ w.arm.Sending (w.course moments).arm (onDashboard log) := by
  induction moments generalizing w with
  | nil =>
      exact ⟨[], .nil, (Arm.Silence.refl w.arm).onDashboard⟩
  | cons m rest ih =>
      obtain ⟨texts, hputs, hsends⟩ := w.sends_live m
      obtain ⟨more, haccount, hrest⟩ := ih (w.live m)
      refine ⟨texts ++ more, .cons hputs (hsends.sent .dashboard) haccount, fun port => ?_,
        hsends.unread.trans hrest.unread⟩
      rw [← onDashboard_append]
      exact (hsends.trans hrest).sent port

/-- Whatever a watch lives through, it sends nothing on the motion and the realtime port. On the
dashboard it sends queries for the faults and clearings, each in a look at the faults of an arm that
is well and in the mode of an error, and each clearing right behind the query of its look, which was
accepted and gave at least one fault. This covers what a watch does by its schedule. -/
theorem sends_only_about_faults (w : Watch) :
    (∀ moments,
      let after := (w.course moments).arm.bench
      after.motion.sent = w.arm.bench.motion.sent ∧
        after.realtime.sent = w.arm.bench.realtime.sent ∧
        ∃ log, after.dashboard.sent = w.arm.bench.dashboard.sent ++ log ∧ Account w moments log) ∧
    (∀ happenings : List Happening, w.Lives (happenings.foldl happen w)) ∧
    ∀ timers wanted milliseconds,
      w.Lives (Scheduled.work wanted milliseconds ⟨w, timers⟩).watch := by
  refine ⟨fun moments => ?_, w.lives_happenings, fun timers => lives_work ⟨w, timers⟩⟩
  obtain ⟨log, haccount, hsending⟩ := w.sends_course moments
  exact ⟨(hsending.sent .motion).trans (List.append_nil _),
    (hsending.sent .realtime).trans (List.append_nil _), log, hsending.sent .dashboard, haccount⟩

end Watch

end ArmLink
