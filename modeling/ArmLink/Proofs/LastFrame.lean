import ArmLink.Proofs.Following
import ArmLink.Proofs.Reassembly

/-!
# What a move rests on

Whether a move may be sent is decided on the mode in the snapshot, and the snapshot
is the last frame that was published, from whichever connection it came. Neither the
loss of the link nor a dial nor a stop takes it back. So a move that is sent rests on
the last frame of the whole history: there has been one, and it reported that the
robot is enabled.

It need not be a frame of the present connection. Between the dial that brings the
link up again and the first frame behind it the mode is that of the connection
before, and a move that is sent then rests on it; `move_can_rest_on_lost_connection`
is such a history. What can be said of the present connection is that none of its
frames speaks against the move: if there is one, the last of them reports that the robot is
enabled.
-/

namespace ArmLink

open ArmLink.Robot (Pose)
open ArmLink.Telemetry (Sign Snapshot published)

namespace Telemetry

/-- What has happened since the link last came up. -/
def sinceOpened (trail : List Sign) : List Sign :=
  (trail.reverse.takeWhile (· ≠ .opened)).reverse

theorem sinceOpened_suffix (trail : List Sign) : sinceOpened trail <:+ trail := by
  have hprefix := List.takeWhile_prefix (fun s => decide (s ≠ .opened)) (l := trail.reverse)
  rw [← List.reverse_suffix, List.reverse_reverse] at hprefix
  exact hprefix

/-- The last frame of the present connection, if it has one, is the last of all. -/
theorem getLast?_published_of_sinceOpened {trail : List Sign} {snapshot : Snapshot}
    (h : (published (sinceOpened trail)).getLast? = some snapshot) :
    (published trail).getLast? = some snapshot := by
  obtain ⟨front, hfront⟩ := sinceOpened_suffix trail
  rw [← hfront, published, List.filterMap_append, List.getLast?_append]
  rw [published] at h
  rw [h]
  rfl

end Telemetry

open Telemetry (sinceOpened getLast?_published_of_sinceOpened)

namespace Arm

/-- An arm that has a mode has it from the last frame of its history. -/
theorem getLast?_published_of_mode {config : Config} {bench : Bench} {turns : List Turn}
    {mode : Robot.Mode}
    (h : ((Arm.new config bench).course turns).feed.snapshot.mode = some mode) :
    ∃ snapshot, (published ((Arm.new config bench).trail turns)).getLast? = some snapshot ∧
      snapshot.mode = some mode := by
  rw [snapshot_course, List.getLastD_eq_getLast?] at h
  cases hlast : (published ((Arm.new config bench).trail turns)).getLast? with
  | none =>
      rw [hlast] at h
      cases h
  | some snapshot =>
      rw [hlast] at h
      exact ⟨snapshot, rfl, h⟩

/-- A move goes out from no arm that is not well and enabled. -/
theorem authorised_of_sent {a : Arm} {target : Pose} {limit : Nat} {late : Bool}
    {between : Nat → Arm → Arm}
    (h : (a.moveAndWait target limit late between).2.bench.motion.sent ≠ a.bench.motion.sent) :
    a.isWell = true ∧ a.feed.snapshot.mode = some .enable := by
  by_cases hwell : a.isWell = true
  · refine ⟨hwell, Decidable.byContradiction fun hmode => h ?_⟩
    rw [moveAndWait_of_rejected (sendMove_of_disabled hwell hmode target)]
  · refine absurd ?_ h
    rw [moveAndWait_of_rejected (sendMove_of_unwell (Bool.eq_false_iff.2 hwell) target)]

/-- A move that is sent rests on the last frame that was ever accepted: there is one, and it reports
that the robot is enabled. No frame since the link last came up says otherwise. -/
theorem move_rests_on_last_frame (config : Config) (bench : Bench) (turns : List Turn)
    (target : Pose) (limit : Nat) (late : Bool) (between : Nat → Arm → Arm) :
    let start := Arm.new config bench
    let trail := start.trail turns
    let now := start.course turns
    let after := (now.moveAndWait target limit late between).2
    after.bench.motion.sent ≠ now.bench.motion.sent →
      now.isWell = true ∧
      (∃ snapshot, (published trail).getLast? = some snapshot ∧ snapshot.mode = some .enable) ∧
      ∀ snapshot, (published (sinceOpened trail)).getLast? = some snapshot →
        snapshot.mode = some .enable := by
  intro start trail now after hsent
  obtain ⟨hwell, hmode⟩ := authorised_of_sent hsent
  obtain ⟨last, hlast, henable⟩ := getLast?_published_of_mode hmode
  refine ⟨hwell, ⟨last, hlast, henable⟩, fun snapshot hsnapshot => ?_⟩
  have hsame := getLast?_published_of_sinceOpened hsnapshot
  obtain rfl := Option.some.inj (hlast.symm.trans hsame)
  exact henable

/-- A frame that reports that the robot is enabled, and zeros. -/
def enabledFrame : List UInt8 :=
  Telemetry.wordBytes 2 Telemetry.frameSize ++ Telemetry.gap 22 ++ Telemetry.putWord 5
    ++ Telemetry.gap 1408

/-- All three links come up, and a frame comes that reports that the robot is enabled. -/
def enabling : List Turn :=
  [.aside .connectDashboard, .aside .startKeeper, .keep, .keep, .keep, .start]
    ++ List.replicate 5 .read ++ [.aside (.arrive .realtime (.bytes enabledFrame))]
    ++ List.replicate 3 .read

/-- Three links that accept every dial, with nothing on them. -/
def quietBench : Bench :=
  let fresh := Link.fresh "down" true
  ⟨fresh, fresh, fresh, .silent⟩

/-- The move goes out on the first connection, behind its first frame. -/
theorem move_rests_on_last_frame_first :
    (((Arm.new (.forAddress "controller") quietBench).course enabling).moveAndWait
        (Pose.planar 0.3 0.0 0.1 0.0) 0 false fun _ a => a).2.bench.motion.sent ≠
      ((Arm.new (.forAddress "controller") quietBench).course enabling).bench.motion.sent ∧
    ∃ snapshot, (published ((Arm.new (.forAddress "controller") quietBench).trail
      enabling)).getLast? = some snapshot ∧ snapshot.mode = some .enable := by
  refine ⟨by decide +kernel, ?_⟩
  obtain ⟨-, hlast, -⟩ := move_rests_on_last_frame (.forAddress "controller") quietBench enabling
    (Pose.planar 0.3 0.0 0.1 0.0) 0 false (fun _ a => a) (by decide +kernel)
  exact hlast

/-- The link is lost behind the frame and dialed again, and before another frame has come the
move goes out all the same. -/
theorem move_can_rest_on_lost_connection :
    ¬ ∀ (config : Config) (bench : Bench) (turns : List Turn) (target : Pose) (limit : Nat),
      let start := Arm.new config bench
      let now := start.course turns
      (now.moveAndWait target limit false fun _ a => a).2.bench.motion.sent ≠
          now.bench.motion.sent →
        ∃ snapshot, (published (sinceOpened (start.trail turns))).getLast? = some snapshot ∧
          snapshot.mode = some .enable := by
  intro hall
  obtain ⟨snapshot, hlast, -⟩ := hall (.forAddress "controller") quietBench
    (enabling ++ [.aside (.drop .realtime)] ++ List.replicate 5 .read)
    (Pose.planar 0.3 0.0 0.1 0.0) 0 (by decide +kernel)
  have hnone : published (sinceOpened ((Arm.new (.forAddress "controller") quietBench).trail
      (enabling ++ [.aside (.drop .realtime)] ++ List.replicate 5 .read))) = [] := by
    decide +kernel
  rw [hnone] at hlast
  cases hlast

end Arm

end ArmLink
