import ArmLink.Proofs.LastFrame
import ArmLink.Proofs.Shutdown

/-!
# What the status shows

The status is written in seven places and read by whoever likes, and nothing ties it
to the link but the order in which the reader goes through its phases. `Mirrored` says
for each phase what the status and the link are then, and every move carries it from
phase to phase.

In the phases around a receive the status is not determined by the link alone. A
reader that dialed its link shows that it streams. A reader that found its link up goes
straight on to receive, past the one place where that is shown, and leaves the status
as it was. So the invariant has to remember whether there has been a dial at all:
behind the first one no reader finds its link up, because every run ends with the link
taken down.
-/

namespace ArmLink

open ArmLink.Telemetry (Feed Phase Reader Sign Status)

namespace Telemetry

/-- How status and link are while the reader is in a phase, given whether the link has ever been
dialed successfully. -/
def Phase.Mirrored (running up : Bool) (status : Status) (dialed : Prop) : Phase → Prop
  | looking | probing | gathering _ | taking _ =>
    (status = .streaming ∨ status = .disconnected) ∧ (up = true → (status = .streaming ↔ dialed))
  | announcing | lowering => up = false
  | dialing | hanging _ | refused => up = false ∧ status = .connecting
  | connected => dialed
  | resting _ => up = false ∧ status = .disconnected
  | yielding | marking | failing | cutting => True
  | posting => status = .fatal
  | finished => running = true → status = .fatal

/-- The link of a phase may go down, and the reader may be told to stop. -/
theorem Phase.Mirrored.lose {running running' up up' : Bool} {status : Status} {dialed : Prop}
    {phase : Phase} (h : phase.Mirrored running up status dialed)
    (hrunning : running' = true → running = true) (hup : up' = true → up = true) :
    phase.Mirrored running' up' status dialed := by
  have hdown : up = false → up' = false := by
    intro hd
    cases hu : up' with
    | false => rfl
    | true => exact absurd (hup hu) (by simp [hd])
  cases phase with
  | looking | probing | gathering | taking => exact ⟨h.1, fun hu => h.2 (hup hu)⟩
  | announcing | lowering => exact hdown h
  | dialing | hanging | refused | resting => exact ⟨hdown h.1, h.2⟩
  | finished => exact fun hr => h (hrunning hr)
  | connected | yielding | marking | failing | cutting | posting => exact h

theorem Phase.Mirrored.move {patience : Patience} {now : Nat} {r r' : Reader} {feed feed' : Feed}
    {link link' : Link} {signs : List Sign} {dialed : Prop}
    (h : r.phase.Mirrored feed.running link.up feed.status dialed)
    (m : Reader.Moves patience now r feed link signs r' feed' link') :
    r'.phase.Mirrored feed'.running link'.up feed'.status (dialed ∨ .opened ∈ signs) := by
  cases m with
  | halt running | excuse running => exact fun hr => absurd hr (by simp [running])
  | giveUp | yield | starve | breakOff | cutShort | fail => trivial
  | mark | cut => rfl
  | post => exact fun _ => h
  | dead up => exact up
  | announce => exact ⟨h, rfl⟩
  | opened => exact .inr (by simp)
  | refused dials up =>
      have hdown : link.up = false ∧ feed.status = .connecting := by
        rcases dials with rfl | ⟨_, rfl⟩ <;> exact h
      refine ⟨Bool.eq_false_iff.2 fun hu => ?_, hdown.2⟩
      rw [up hu] at hdown
      exact absurd hdown.1 (by simp)
  | hang up => exact ⟨up, h.2⟩
  | lie => exact ⟨h.1, rfl⟩
  | wake => exact ⟨.inr h.2, fun hu => absurd hu (by simp [h.1])⟩
  | stream => exact ⟨.inl rfl, fun _ => iff_of_true rfl (.inl h)⟩
  | lower => exact ⟨.inr rfl, fun hu => absurd hu (by simp [show link.up = false from h])⟩
  | hand _ _ _ up => exact ⟨h.1, fun _ => by simpa using h.2 up⟩
  | fallShort _ _ up => exact ⟨h.1, fun hu => by simpa using h.2 (up ▸ hu)⟩
  | goOn | live | complete | publish | discard => exact ⟨h.1, fun hu => by simpa using h.2 hu⟩

/-- A reader that cannot take a step dials, rests, receives or has ended. -/
theorem phase_of_stuck {patience : Patience} {now : Nat} {r : Reader} {feed : Feed} {link : Link}
    (h : r.step patience now feed link = none) :
    (∃ cuts, r.phase = .hanging cuts) ∨ (∃ wake, r.phase = .resting wake) ∨
      (∃ got, r.phase = .gathering got) ∧ link.up = true ∨ r.phase = .finished := by
  obtain ⟨n, phase⟩ := r
  cases phase with
  | hanging cuts => exact .inl ⟨cuts, rfl⟩
  | resting wake => exact .inr (.inl ⟨wake, rfl⟩)
  | finished => exact .inr (.inr (.inr rfl))
  | gathering got =>
      refine .inr (.inr (.inl ⟨⟨got, rfl⟩, ?_⟩))
      by_contra hdown
      have hfails (size : Nat) : link.receive size = (.failed (Link.fault link.offline), link) := by
        rw [Link.receive, if_neg hdown]
      simp only [Reader.step, hfails] at h
      split at h
      · cases h
      · split at h <;> cases h
  | _ => cases h

end Telemetry

namespace Arm

/-- Status and link are as the phase of the reader has them. While no reader is there, the link is
only up if it has never been dialed. -/
structure Mirrored (a : Arm) (dialed : Prop) : Prop where
  away : a.reader = none → (a.feed.status = .fatal ∨ a.feed.status = .disconnected) ∧
    (a.bench.realtime.up = true → ¬ dialed)
  there : ∀ r, a.reader = some r →
    r.phase.Mirrored a.feed.running a.bench.realtime.up a.feed.status dialed

section

variable {a b : Arm} {dialed : Prop}

/-- Nothing that leaves the reader and its status alone disturbs this. -/
theorem Mirrored.keep (h : a.Mirrored dialed) (hreader : b.reader = a.reader)
    (hstatus : b.feed.status = a.feed.status)
    (hrunning : b.feed.running = true → a.feed.running = true)
    (hup : b.bench.realtime.up = true → a.bench.realtime.up = true) : b.Mirrored dialed := by
  constructor
  · intro hnone
    obtain ⟨hs, hfresh⟩ := h.away (hreader ▸ hnone)
    exact ⟨hstatus ▸ hs, fun hu => hfresh (hup hu)⟩
  · intro r hr
    rw [hstatus]
    exact (h.there r (hreader ▸ hr)).lose hrunning hup

theorem Mirrored.spares (h : a.Mirrored dialed) (hab : a.Spares b) : b.Mirrored dialed :=
  h.keep hab.reader (by rw [hab.feed]) (by rw [hab.feed]; exact id) hab.realtime.up

theorem Mirrored.turn (h : a.Mirrored dialed) (t : Turn) :
    (a.turn t).Mirrored (dialed ∨ .opened ∈ a.deeds t) := by
  have hquiet (hdeeds : Sign.opened ∉ a.deeds t) (hb : (a.turn t).Mirrored dialed) :
      (a.turn t).Mirrored (dialed ∨ .opened ∈ a.deeds t) := by
    rwa [or_iff_left hdeeds]
  cases t with
  | read =>
      rcases a.turn_read with ⟨-, hturn, hdeeds⟩ | ⟨r, r', feed, link, hr, hm, hturn⟩
      · exact hquiet (by simp [hdeeds]) (hturn.symm ▸ h)
      · rw [hturn]
        refine ⟨fun hnone => (by cases hnone), fun r₁ hr₁ => ?_⟩
        obtain rfl := Option.some.inj hr₁
        exact (h.there r hr).move hm
  | keep => exact hquiet (by simp [deeds]) (h.spares a.spares_keep)
  | aside event => exact hquiet (by simp [deeds]) (h.spares (a.spares_aside event))
  | pass | take => exact hquiet (by simp [deeds]) (h.keep rfl rfl id id)
  | lower => exact hquiet (by simp [deeds]) (h.keep rfl rfl (fun hr => by cases hr) id)
  | cut => exact hquiet (by simp [deeds]) (h.keep rfl rfl id fun hu => by cases hu)
  | sway link =>
      refine hquiet (by simp [deeds]) (h.keep rfl rfl id fun hu => ?_)
      have hboth : (a.bench.realtime.up && link.up) = true := hu
      exact (Bool.and_eq_true_iff.1 hboth).1
  | start =>
      cases hr : a.reader with
      | some r =>
          refine hquiet (by simp [deeds, hr]) ?_
          rw [Arm.turn, startReader_of_some hr]
          exact h
      | none =>
          refine hquiet (by simp [deeds, hr]) ?_
          simp only [Arm.turn, startReader, hr, Option.isSome_none, Bool.false_eq_true, if_false]
          refine ⟨fun hnone => (by cases hnone), fun r hr₁ => ?_⟩
          obtain rfl := Option.some.inj hr₁
          -- A link that is up here has been up from the beginning.
          exact ⟨.inr rfl, fun hu => iff_of_false (by simp) ((h.away hr).2 hu)⟩
  | join =>
      refine hquiet (by simp [deeds]) ?_
      rw [Arm.turn]
      split
      · obtain ⟨status, hstatus, hlower⟩ := lower_eq
          { a with reader := none, bench := a.bench.update .realtime Link.close }
        rw [hlower]
        exact ⟨fun _ => ⟨hstatus, fun hu => (by cases hu)⟩, fun r hr => (by cases hr)⟩
      · exact h

theorem opened_mem_signs (a : Arm) (t : Turn) : .opened ∈ a.signs t ↔ .opened ∈ a.deeds t := by
  rw [signs, List.mem_append]
  split <;> simp

theorem mirrored_course (config : Config) (bench : Bench) (turns : List Turn) :
    ((Arm.new config bench).course turns).Mirrored
      (.opened ∈ (Arm.new config bench).trail turns) := by
  induction turns using List.reverseRecOn with
  | nil => exact ⟨fun _ => ⟨.inr rfl, fun _ => List.not_mem_nil⟩, fun r hr => nomatch hr⟩
  | append_singleton turns t ih =>
      rw [course_concat, trail_concat, List.mem_append, opened_mem_signs]
      exact ih.turn t

end

/-! ## At rest -/

/-- The reader has nothing to do, and nobody is about to stop it. -/
def AtRest (a : Arm) : Prop :=
  a.stepReader = none ∧ (a.reader.isSome = true → a.feed.running = true)

/-- The reader waits for data on a link that is up. -/
def IsReceiving (a : Arm) : Prop :=
  (∃ n got, a.reader = some ⟨n, .gathering got⟩) ∧ a.bench.realtime.up = true

/-- The reader waits for its dial to be answered. -/
def IsDialing (a : Arm) : Prop :=
  ∃ n cuts, a.reader = some ⟨n, .hanging cuts⟩

theorem AtRest.stuck {a : Arm} (h : a.AtRest) {r : Reader} (hr : a.reader = some r) :
    r.step a.config.patience a.clock a.feed a.bench.realtime = none := by
  have hstuck := h.1
  cases hs : r.step a.config.patience a.clock a.feed a.bench.realtime with
  | none => rfl
  | some next => simp [stepReader, hr, hs] at hstuck

/-- Whenever the reader is at rest, the status is that of what it waits for: `connecting` while a
dial is not answered, `streaming` while it receives on a link that it has dialed, `fatal` when the
last run has left its notice, `disconnected` otherwise. A link that was up when the first reader
was started, and has not been dialed since, is received from as `disconnected`. -/
theorem status_mirrors_dialed_link (config : Config) (bench : Bench) (turns : List Turn)
    (rest : ((Arm.new config bench).course turns).AtRest) :
    let now := (Arm.new config bench).course turns
    let dialed := .opened ∈ (Arm.new config bench).trail turns
    let gaveUp := (Arm.new config bench).posted false turns = true
    (now.feed.status = .streaming ↔ now.IsReceiving ∧ dialed) ∧
    (now.feed.status = .connecting ↔ now.IsDialing) ∧
    (now.feed.status = .fatal ↔ gaveUp) ∧
    (now.feed.status = .disconnected ↔
      ¬ (now.IsReceiving ∧ dialed) ∧ ¬ now.IsDialing ∧ ¬ gaveUp) := by
  intro now dialed gaveUp
  have hmirror : now.Mirrored dialed := mirrored_course config bench turns
  have htruth : now.Truthful ((Arm.new config bench).posted false turns) :=
    (truthful_new config bench).course turns
  have hfatal : now.feed.status = .fatal ↔ gaveUp := by
    refine htruth.fatal.trans (or_iff_left ?_)
    rintro ⟨n, hr⟩
    cases rest.stuck hr
  have hrest : (now.feed.status = .streaming ↔ now.IsReceiving ∧ dialed) ∧
      (now.feed.status = .connecting ↔ now.IsDialing) := by
    cases hr : now.reader with
    | none =>
        rcases (hmirror.away hr).1 with hs | hs <;> simp [hs, IsReceiving, IsDialing, hr]
    | some r =>
        obtain ⟨n, phase⟩ := r
        have hphase := hmirror.there _ hr
        rcases Telemetry.phase_of_stuck (rest.stuck hr) with
          ⟨cuts, rfl⟩ | ⟨wake, rfl⟩ | ⟨⟨got, rfl⟩, hup⟩ | rfl
        · simp [hphase.2, IsReceiving, IsDialing, hr]
        · simp [hphase.2, IsReceiving, IsDialing, hr]
        · have hreceiving : now.IsReceiving := ⟨⟨n, got, hr⟩, hup⟩
          have hdialing : ¬ now.IsDialing := by simp [IsDialing, hr]
          refine ⟨(hphase.2 hup).trans (and_iff_right hreceiving).symm, iff_of_false ?_ hdialing⟩
          rcases hphase.1 with hs | hs <;> simp [hs]
        · have hs : now.feed.status = .fatal := hphase (rest.2 (by rw [hr]; rfl))
          simp [hs, IsReceiving, IsDialing, hr]
  refine ⟨hrest.1, hrest.2, hfatal, ?_⟩
  rw [← hrest.1, ← hrest.2, ← hfatal]
  cases now.feed.status <;> simp

/-- A link that is up although nobody has dialed it. -/
def foundUp : Bench :=
  { quietBench with realtime := { quietBench.realtime with up := true } }

/-- A reader finds its link up, loses it and dials. -/
def losing : List Turn :=
  [.start, .read, .read, .sway { foundUp.realtime with up := false }] ++ List.replicate 9 .read

/-- Behind its first dial the reader shows that it streams. -/
theorem status_mirrors_dialed_link_redialed :
    ((Arm.new (.forAddress "controller") foundUp).course losing).AtRest ∧
    ((Arm.new (.forAddress "controller") foundUp).course losing).feed.status = .streaming := by
  have hrest : ((Arm.new (.forAddress "controller") foundUp).course losing).AtRest :=
    ⟨rfl, fun _ => rfl⟩
  refine ⟨hrest, (status_mirrors_dialed_link _ _ _ hrest).1.mpr ⟨⟨⟨_, _, rfl⟩, rfl⟩, ?_⟩⟩
  decide +kernel

/-- A reader that finds its link up receives from it and does not show it. -/
theorem link_found_up_is_not_shown :
    ¬ ∀ (config : Config) (bench : Bench) (turns : List Turn),
      let now := (Arm.new config bench).course turns
      now.AtRest → (now.feed.status = .streaming ↔ now.IsReceiving) := by
  intro h
  have hshown := (h (.forAddress "controller") foundUp [.start, .read, .read]
    ⟨rfl, fun _ => rfl⟩).mpr ⟨⟨_, _, rfl⟩, rfl⟩
  cases hshown

end Arm

end ArmLink
