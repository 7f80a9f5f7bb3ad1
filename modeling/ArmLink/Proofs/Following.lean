import ArmLink.Proofs.Disconnection
import ArmLink.Proofs.HandsOff

/-!
# Following a move

A move is sent only to an arm that is well and enabled, and what is sent is then
followed by looks. What happens between one look and the next is not in the hands
of the host, so nothing is assumed about it: `between` is any function, and
`atLook` is the arm as the looks find it. `Ends` says what ends a move at a look,
in the order in which it is tested, each case with the guards that were not met;
`Pending` is the case that is left. They are said in terms of the arm alone, so
that a verdict given in another order would not satisfy them.

The fuel of `follow` is one look more than the limit allows. At the look behind
the limit the time is up whatever else is the case, so the fuel never runs out
and the outcome it would give decides nothing.
-/

namespace ArmLink

open ArmLink.Motion (Move)
open ArmLink.Robot (Pose)

/-! ## What a send adds to what was sent -/

/-- A text that is sent on the motion port is sent there once, and nowhere else is anything sent. -/
theorem Bench.sent_sendMotion {b after : Bench} {text : String}
    (h : b.sendMotion text = (.ok (), after)) (port : Port) :
    (after.link port).sent =
      (b.link port).sent ++ if port = .motion then [text] else [] := by
  rw [sendMotion] at h
  split at h
  · next motion hsend =>
      obtain ⟨-, hmotion⟩ := Link.send_ok hsend
      obtain rfl := (Prod.mk.inj h).2
      rw [(leftAlone_heardMotion _ port).sent]
      by_cases hport : port = .motion
      · subst hport
        rw [if_pos rfl]
        show motion.sent = _
        rw [hmotion]
        rfl
      · rw [if_neg hport, List.append_nil, link_motion hport]
  · simp at h

theorem Bench.sendMotion_of_faulty {b : Bench} {text fault : String} {rest : List String}
    (hup : b.motion.up = true) (hfaults : b.motion.sendFaults = fault :: rest) :
    b.sendMotion text =
      (.error (Link.fault fault), { b with
        motion := { b.motion with up := false, sendFaults := rest } }) := by
  rw [sendMotion, Link.send, if_pos hup, hfaults]

theorem Bench.sendMotion_of_clear {b : Bench} (hup : b.motion.up = true)
    (hfaults : b.motion.sendFaults = []) (text : String) : (b.sendMotion text).1 = .ok () := by
  rw [sendMotion, Link.send, if_pos hup, hfaults]

namespace Arm

/-! ## Looks -/

/-- The arm as a look finds it. -/
def atLook (between : Nat → Arm → Arm) (a : Arm) : Nat → Arm
  | 0 => a
  | look + 1 => between look (atLook between a look)

/-- What ends a move at a look. -/
inductive Ends (target : Pose) (limit look : Nat) (a : Arm) : Outcome → Prop where
  | reached (near : a.feed.snapshot.pose.reaches target = true) :
      Ends target limit look a (.reached a.feed.snapshot.pose)
  | lost (far : a.feed.snapshot.pose.reaches target = false) (unwell : a.isWell = false) :
      Ends target limit look a (.aborted .connectionLost a.feed.snapshot.pose)
  | faulty (far : a.feed.snapshot.pose.reaches target = false) (well : a.isWell = true)
      (error : a.feed.snapshot.mode = some .error) :
      Ends target limit look a (.aborted .robotError a.feed.snapshot.pose)
  | late (far : a.feed.snapshot.pose.reaches target = false) (well : a.isWell = true)
      (calm : a.feed.snapshot.mode ≠ some .error) (up : limit < 100 * look) :
      Ends target limit look a (.aborted .timeout a.feed.snapshot.pose)

/-- Nothing ends the move at a look. -/
structure Pending (target : Pose) (limit look : Nat) (a : Arm) : Prop where
  far : a.feed.snapshot.pose.reaches target = false
  well : a.isWell = true
  calm : a.feed.snapshot.mode ≠ some .error
  early : 100 * look ≤ limit

theorem isInMode_iff (mode : Robot.Mode) (a : Arm) :
    a.isInMode mode = true ↔ a.feed.snapshot.mode = some mode := by
  rw [isInMode, beq_iff_eq]

theorem isLate_iff (limit look : Nat) : isLate limit false look = true ↔ limit < 100 * look := by
  rw [isLate, if_neg Bool.false_ne_true, lookPeriod, decide_eq_true_iff]

theorem verdict_cases (target : Pose) (limit look : Nat) (a : Arm) :
    (verdict target limit false look a = none ∧ Pending target limit look a) ∨
      ∃ outcome, verdict target limit false look a = some outcome ∧
        Ends target limit look a outcome := by
  rw [verdict]
  by_cases hnear : a.feed.snapshot.pose.reaches target = true
  · rw [if_pos hnear]
    exact .inr ⟨_, rfl, .reached hnear⟩
  · rw [if_neg hnear]
    have hfar := Bool.eq_false_iff.2 hnear
    by_cases hwell : a.isWell = true
    · rw [if_neg (by rw [hwell]; exact Bool.false_ne_true)]
      by_cases herror : a.isInMode .error = true
      · rw [if_pos herror]
        exact .inr ⟨_, rfl, .faulty hfar hwell ((isInMode_iff _ a).1 herror)⟩
      · rw [if_neg herror]
        have hcalm := fun h => herror ((isInMode_iff _ a).2 h)
        by_cases hlate : limit < 100 * look
        · rw [if_pos ((isLate_iff limit look).2 hlate)]
          exact .inr ⟨_, rfl, .late hfar hwell hcalm hlate⟩
        · rw [if_neg fun h => hlate ((isLate_iff limit look).1 h)]
          exact .inl ⟨rfl, hfar, hwell, hcalm, Nat.le_of_not_lt hlate⟩
    · have hunwell := Bool.eq_false_iff.2 hwell
      rw [if_pos (by rw [hunwell]; rfl)]
      exact .inr ⟨_, rfl, .lost hfar hunwell⟩

/-- A move that is followed from a look on ends at the first look that ends it. The fuel covers
the looks up to the first one behind the limit. -/
theorem followFrom_first (target : Pose) (limit : Nat) (between : Nat → Arm → Arm) (a : Arm)
    {fuel look : Nat} (hfuel : look + fuel = limit / 100 + 2) (hlook : look ≤ limit / 100 + 1) :
    ∃ last outcome, look ≤ last ∧ last ≤ limit / 100 + 1 ∧
      (∀ k, look ≤ k → k < last → Pending target limit k (atLook between a k)) ∧
      Ends target limit last (atLook between a last) outcome ∧
      followFrom target limit false between fuel look (atLook between a look) =
        (outcome, atLook between a last) := by
  induction fuel generalizing look with
  | zero => omega
  | succ fuel ih =>
      rw [followFrom]
      rcases verdict_cases target limit look (atLook between a look) with
        ⟨hnone, hpending⟩ | ⟨outcome, hsome, hends⟩
      · rw [hnone]
        have hearly := hpending.early
        obtain ⟨last, outcome, hle, hlast, hbefore, hends, hfollow⟩ :=
          ih (show look + 1 + fuel = limit / 100 + 2 by omega) (by omega)
        refine ⟨last, outcome, by omega, hlast, fun k hk hlt => ?_, hends, hfollow⟩
        by_cases hsame : k = look
        · rw [hsame]
          exact hpending
        · exact hbefore k (by omega) hlt
      · rw [hsome]
        refine ⟨look, outcome, Nat.le_refl _, hlook, fun k hk hlt => ?_, hends, rfl⟩
        exact absurd hlt (Nat.not_lt.2 hk)

theorem follow_first (target : Pose) (limit : Nat) (between : Nat → Arm → Arm) (a : Arm) :
    ∃ last outcome, last ≤ limit / 100 + 1 ∧
      (∀ k < last, Pending target limit k (atLook between a k)) ∧
      Ends target limit last (atLook between a last) outcome ∧
      a.follow target limit false between = (outcome, atLook between a last) := by
  obtain ⟨last, outcome, -, hlast, hbefore, hends, hfollow⟩ :=
    followFrom_first target limit between a (Nat.zero_add _) (Nat.zero_le _)
  exact ⟨last, outcome, hlast, fun k => hbefore k (Nat.zero_le k), hends, hfollow⟩

/-- Looks find what was sent as it was, if the host keeps its hands off in between. -/
theorem handsOff_atLook {between : Nat → Arm → Arm}
    (hbetween : ∀ look a, Leads Turn.isHandsOff a (between look a)) (a : Arm) (look : Nat) :
    a.HandsOff (atLook between a look) := by
  induction look with
  | zero => exact .refl a
  | succ look ih => exact ih.trans (hbetween look _).handsOff

/-! ## The whole call -/

theorem moveAndWait_of_error {a sent : Arm} {target : Pose} {failure : Failure}
    (h : a.sendMove target = (.error failure, sent)) (limit : Nat) (late : Bool)
    (between : Nat → Arm → Arm) :
    a.moveAndWait target limit late between = (.error failure, sent) := by
  rw [moveAndWait, h]

theorem moveAndWait_of_rejected {a sent : Arm} {target : Pose} {reason : Rejection}
    (h : a.sendMove target = (.ok (some reason), sent)) (limit : Nat) (late : Bool)
    (between : Nat → Arm → Arm) :
    a.moveAndWait target limit late between = (.ok (.rejected reason), sent) := by
  rw [moveAndWait, h]

theorem moveAndWait_of_sent {a sent : Arm} {target : Pose}
    (h : a.sendMove target = (.ok none, sent)) (limit : Nat) (late : Bool)
    (between : Nat → Arm → Arm) :
    a.moveAndWait target limit late between =
      (.ok (sent.follow target limit late between).1,
        (sent.follow target limit late between).2) := by
  rw [moveAndWait, h]

theorem sendMove_of_unwell {a : Arm} (h : a.isWell = false) (target : Pose) :
    a.sendMove target = (.ok (some .notConnected), a) := by
  rw [sendMove, rejection?, h]
  rfl

theorem rejection?_of_well {a : Arm} (h : a.isWell = true) :
    a.rejection? = if a.isInMode .enable then none else some .notEnabled := by
  rw [rejection?, h]
  cases a.isInMode .enable <;> rfl

theorem sendMove_of_disabled {a : Arm} (hwell : a.isWell = true)
    (hmode : a.feed.snapshot.mode ≠ some .enable) (target : Pose) :
    a.sendMove target = (.ok (some .notEnabled), a) := by
  have hmode : a.isInMode .enable ≠ true := fun h => hmode ((isInMode_iff _ a).1 h)
  rw [sendMove, rejection?_of_well hwell, if_neg hmode]

/-- An arm that is well and enabled sends the move, or fails as the send does. -/
theorem sendMove_of_enabled {a : Arm} (hwell : a.isWell = true)
    (hmode : a.feed.snapshot.mode = some .enable) (target : Pose) :
    a.sendMove target =
      ((((Move.movL target).send a.bench).1).map fun _ => none,
        { a with bench := ((Move.movL target).send a.bench).2 }) := by
  have hmode : a.isInMode .enable = true := (isInMode_iff _ a).2 hmode
  rw [sendMove, rejection?_of_well hwell, if_pos hmode]
  rfl

theorem motion_up_of_well {a : Arm} (h : a.isWell = true) : a.bench.motion.up = true := by
  rw [isWell] at h
  simp only [Bool.and_eq_true] at h
  exact h.1.1.2

/-- A straight move that is followed comes to one of these ends. An arm that is not well, or not
enabled, is sent nothing, and a move that cannot be sent leaves nothing but its failure. Otherwise
the move is sent once, and it ends at the first look that ends it, which is no later than the first
one behind the limit; nothing else is sent while the host keeps its hands off between the looks. -/
theorem move_ends_at_first_look (a : Arm) (target : Pose) (limit : Nat)
    (between : Nat → Arm → Arm) :
    let command := (Move.movL target).command
    let result := (a.moveAndWait target limit false between).1
    let after := (a.moveAndWait target limit false between).2
    let sent := (a.onBench (Move.movL target).send).2
    (a.isWell = false → result = .ok (.rejected .notConnected) ∧ after = a) ∧
    (a.isWell = true → a.feed.snapshot.mode ≠ some .enable →
      result = .ok (.rejected .notEnabled) ∧ after = a) ∧
    (a.isWell = true → a.feed.snapshot.mode = some .enable →
      (∀ failure, command.check = .error failure →
        result = .error failure ∧ after = a ∧ ∃ fault, failure = .argument fault) ∧
      (command.check = .ok () →
        (∀ text rest, a.bench.motion.sendFaults = text :: rest →
          result = .error (.connection (.reported text)) ∧
          ∀ port, (after.bench.link port).sent = (a.bench.link port).sent) ∧
        (a.bench.motion.sendFaults = [] →
          ∃ last outcome, last ≤ limit / 100 + 1 ∧
            (∀ look < last, Pending target limit look (atLook between sent look)) ∧
            Ends target limit last (atLook between sent last) outcome ∧
            result = .ok outcome ∧ after = atLook between sent last ∧
            (∀ port, (sent.bench.link port).sent =
              (a.bench.link port).sent ++ if port = .motion then [command.text] else []) ∧
            ((∀ look b, Leads Turn.isHandsOff b (between look b)) → ∀ port,
              (after.bench.link port).sent = (sent.bench.link port).sent)))) := by
  intro command result after sent
  refine ⟨fun hunwell => ?_, fun hwell hmode => ?_, fun hwell hmode => ⟨?_, fun hcheck => ⟨?_, ?_⟩⟩⟩
  · have hmove := moveAndWait_of_rejected (sendMove_of_unwell hunwell target) limit false between
    exact ⟨congrArg Prod.fst hmove, congrArg Prod.snd hmove⟩
  · have hmove := moveAndWait_of_rejected (sendMove_of_disabled hwell hmode target) limit false
      between
    exact ⟨congrArg Prod.fst hmove, congrArg Prod.snd hmove⟩
  · intro failure hcheck
    have hsend := sendMove_of_enabled hwell hmode target
    rw [Move.send, hcheck] at hsend
    have hmove := moveAndWait_of_error hsend limit false between
    exact ⟨congrArg Prod.fst hmove, congrArg Prod.snd hmove, Dashboard.check_error hcheck⟩
  · intro text rest hfaults
    have hsend := sendMove_of_enabled hwell hmode target
    rw [Move.send, hcheck] at hsend
    simp only [Bench.sendMotion_of_faulty (motion_up_of_well hwell) hfaults] at hsend
    have hmove := moveAndWait_of_error hsend limit false between
    refine ⟨congrArg Prod.fst hmove, fun port => ?_⟩
    have hafter : after = _ := congrArg Prod.snd hmove
    rw [hafter]
    cases port <;> rfl
  · intro hclear
    have hclean := Bench.sendMotion_of_clear (motion_up_of_well hwell) hclear command.text
    have hsends : (Move.movL target).send a.bench = a.bench.sendMotion command.text := by
      rw [Move.send, hcheck]
    have hsend : a.sendMove target = (.ok none, sent) := by
      rw [sendMove_of_enabled hwell hmode target, hsends, hclean]
      show _ = (_, (a.onBench (Move.movL target).send).2)
      rw [onBench, hsends]
      rfl
    have hmove := moveAndWait_of_sent hsend limit false between
    obtain ⟨last, outcome, hlast, hbefore, hends, hfollow⟩ := follow_first target limit between sent
    rw [hfollow] at hmove
    refine ⟨last, outcome, hlast, hbefore, hends, congrArg Prod.fst hmove, congrArg Prod.snd hmove,
      fun port => ?_, fun hbetween port => ?_⟩
    · refine Bench.sent_sendMotion ?_ port
      rw [← hsends]
      refine Prod.ext ?_ rfl
      rw [hsends]
      exact hclean
    · have hafter : after = _ := congrArg Prod.snd hmove
      rw [hafter]
      exact (handsOff_atLook hbetween sent last).sent port

/-- The realtime link is lost between the second look and the third. -/
theorem move_ends_at_first_look_lost :
    let up := { Link.fresh "down" true with up := true }
    let snapshot := { Telemetry.Snapshot.blank with mode := some .enable }
    let feed : Telemetry.Feed := ⟨false, .streaming, snapshot, none⟩
    let a := { Arm.new (.forAddress "controller") ⟨up, up, up, .silent⟩ with feed }
    let target := Pose.planar 0.3 0.0 0.1 0.0
    let between look (b : Arm) :=
      (b.undergoAll (eventsAfter look [(150, .drop .realtime)])).2
    let result := (a.moveAndWait target 1000 false between).1
    let after := (a.moveAndWait target 1000 false between).2
    let sent := (a.onBench (Move.movL target).send).2
    result.toOption = some (.aborted .connectionLost .origin) ∧
      (∃ last outcome, last ≤ 11 ∧
        (∀ look < last, Pending target 1000 look (atLook between sent look)) ∧
        Ends target 1000 last (atLook between sent last) outcome ∧ result = .ok outcome) ∧
      ∀ port, (after.bench.link port).sent =
        if port = .motion then ["MovL(300.000,0.000,100.000,0.000)"] else [] := by
  intro up snapshot feed a target between result after sent
  have hwell : a.isWell = true := by decide +kernel
  have hfinite : (Move.movL target).command.arguments.findSome? Argument.unsendable? = none := by
    decide +kernel
  have hcheck : (Move.movL target).command.check = .ok () := by rw [Command.check, hfinite]
  have htext : (Move.movL target).command.text = "MovL(300.000,0.000,100.000,0.000)" := by
    decide +kernel
  obtain ⟨-, -, hmoves⟩ := move_ends_at_first_look a target 1000 between
  obtain ⟨-, hsends⟩ := hmoves hwell rfl
  obtain ⟨last, outcome, hlast, hbefore, hends, hresult, -, hsent, hafter⟩ := (hsends hcheck).2 rfl
  refine ⟨by decide +kernel, ⟨last, outcome, hlast, hbefore, hends, hresult⟩, fun port => ?_⟩
  rw [hafter (fun look b => leads_undergoAll b ?_) port, hsent port, htext]
  · cases port <;> rfl
  · intro event hevent
    obtain ⟨⟨time, event'⟩, hmem, rfl⟩ := List.mem_map.1 hevent
    obtain ⟨rfl, rfl⟩ := Prod.mk.inj (List.mem_singleton.1 (List.mem_filter.1 hmem).1)
    rfl

end Arm

end ArmLink
