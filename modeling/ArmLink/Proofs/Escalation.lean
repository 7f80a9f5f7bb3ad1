import Mathlib.Data.List.Induction
import ArmLink.Proofs.GaveUp

/-!
# When a reader gives up

The reader keeps one number, and whether it gives up hangs on that number alone.
`Counted` says what the number has to do with the history: it is the count of
failures since the last frame, `failuresSince`, except that a receive that failed
has already happened when the reader stands at `failing` and has not been counted
yet. The rest of `Counted` follows the phases. From the look that finds the limit
not reached, through dialing and gathering, the count is below the limit, which is
what leaves room for one more failure; behind a failure it may be the limit, and
then the reader takes at most seven more steps, none of which uses the link.

The run goes on with whatever anyone does in between, so the step lemma comes in
two halves: a move of the reader, by cases over `Moves`, and everything else,
which can take the link down but not up and can take the notice but not leave one.
-/

namespace ArmLink

namespace Telemetry

/-- Whether the sign is that of a failure: a dial or a receive that failed, or a
block for which nothing came at all. -/
def Sign.isFailure : Sign → Bool
  | .refused | .broken => true
  | .quiet got => got.isEmpty
  | _ => false

def Sign.isFrame : Sign → Bool
  | .published _ => true
  | _ => false

/-- How many failures have come since the last frame. -/
def failuresSince (trail : List Sign) : Nat :=
  (trail.reverse.takeWhile fun s => !s.isFrame).countP Sign.isFailure

/-- A count of failures after one more sign. -/
def Sign.tally (count : Nat) (s : Sign) : Nat :=
  if s.isFrame then 0 else if s.isFailure then count + 1 else count

theorem failuresSince_concat (trail : List Sign) (s : Sign) :
    failuresSince (trail ++ [s]) = s.tally (failuresSince trail) := by
  unfold failuresSince Sign.tally
  rw [List.reverse_append]
  cases hframe : s.isFrame <;> cases hfailure : s.isFailure <;> simp [hframe, hfailure]

theorem failuresSince_append (trail signs : List Sign) :
    failuresSince (trail ++ signs) = signs.foldl Sign.tally (failuresSince trail) := by
  induction signs generalizing trail with
  | nil => simp
  | cons s rest ih =>
      rw [List.append_cons, ih, failuresSince_concat]
      rfl

/-- The failures that have come and are not counted yet. -/
def Phase.unheard : Phase → Nat
  | .failing => 1
  | _ => 0

/-- Whether the reader is between a look that let it go on and the next outcome. -/
def Phase.isOpen : Phase → Bool
  | .probing | .announcing | .dialing | .hanging _ | .connected | .gathering _ | .taking _ => true
  | _ => false

/-- Whether the reader has found the limit reached. -/
def Phase.hasGivenUp : Phase → Bool
  | .yielding | .marking | .posting | .finished => true
  | _ => false

/-- Whether the reader has taken the link down for good. -/
def Phase.isDown : Phase → Bool
  | .marking | .posting | .finished => true
  | _ => false

/-- How many steps are left to a reader that has reached the limit. -/
def Phase.stepsLeft : Phase → Nat
  | .failing => 7
  | .refused | .cutting => 6
  | .resting _ | .lowering => 5
  | .looking => 4
  | .yielding => 3
  | .marking => 2
  | .posting => 1
  | _ => 0

theorem Phase.stepsLeft_le (phase : Phase) : phase.stepsLeft ≤ 7 := by
  cases phase <;> simp [stepsLeft]

/-- What a reader that is left to run has to do with `count` failures since the
last frame; `taken` are the notices that have been taken from it. -/
structure Counted (patience : Patience) (taken : List Failure) (r : Reader) (feed : Feed)
    (link : Link) (count : Nat) : Prop where
  running : feed.running = true
  count_eq : count = r.failures + r.phase.unheard
  le_limit : count ≤ patience.trials
  lt_limit : r.phase.isOpen = true → count < patience.trials
  given_up : r.phase.hasGivenUp = true → count = patience.trials
  shown : feed.status = .fatal ↔ r.phase.isShown = true
  down : r.phase.isDown = true → link.up = false
  posted : taken ++ feed.notice.toList =
    if r.phase = .finished then [.gaveUp patience.trials] else []

/-- A dial is open, and everything about it has been counted. -/
theorem Phase.isOpen_of_dials {phase : Phase}
    (h : phase = .dialing ∨ ∃ cuts, phase = .hanging cuts) :
    phase.isOpen = true ∧ phase.unheard = 0 ∧ phase.isShown = false ∧ phase ≠ .finished := by
  rcases h with rfl | ⟨cuts, rfl⟩ <;> exact ⟨rfl, rfl, rfl, by simp⟩

theorem Counted.move {patience : Patience} {now count : Nat} {taken : List Failure}
    {r r' : Reader} {feed feed' : Feed} {link link' : Link} {signs : List Sign}
    (h : Counted patience taken r feed link count)
    (m : Reader.Moves patience now r feed link signs r' feed' link') :
    Counted patience taken r' feed' link' (signs.foldl Sign.tally count) := by
  obtain ⟨running, count_eq, le_limit, lt_limit, given_up, shown, down, posted⟩ := h
  cases m with
  | halt lowered | excuse lowered => exact absurd running (by simp [lowered])
  | opened dials =>
      obtain ⟨hopen, hheard, hshown, hfinished⟩ :=
        Phase.isOpen_of_dials (dials.imp_right fun h => ⟨_, h⟩)
      rw [if_neg hfinished] at posted
      rw [hheard] at count_eq
      rw [hshown] at shown
      exact ⟨running, count_eq, le_limit, fun _ => lt_limit hopen, fun h => (by cases h), shown,
        fun h => (by cases h), posted⟩
  | refused dials =>
      -- The dial was begun below the limit, so there is room for the failure.
      obtain ⟨hopen, hheard, hshown, hfinished⟩ := Phase.isOpen_of_dials dials
      rw [if_neg hfinished] at posted
      rw [hheard] at count_eq
      rw [hshown] at shown
      exact ⟨running, congrArg (· + 1) count_eq, lt_limit hopen, fun h => (by cases h),
        fun h => (by cases h), shown, fun h => (by cases h), posted⟩
  | _ =>
      constructor <;>
        simp_all [Phase.unheard, Phase.isOpen, Phase.hasGivenUp, Phase.isDown, Phase.isShown,
          Sign.tally, Sign.isFrame, Sign.isFailure] <;> omega

/-- At the limit a reader uses the link no more, and every step brings it nearer to its end. -/
theorem Counted.spend {patience : Patience} {now : Nat} {taken : List Failure}
    {r r' : Reader} {feed feed' : Feed} {link link' : Link} {signs : List Sign}
    (h : Counted patience taken r feed link patience.trials)
    (m : Reader.Moves patience now r feed link signs r' feed' link') :
    signs = [] ∧ r'.phase.stepsLeft + 1 = r.phase.stepsLeft := by
  obtain ⟨running, count_eq, -, lt_limit, -, -, -, -⟩ := h
  have hopen : r.phase.isOpen ≠ true := fun h => Nat.lt_irrefl _ (lt_limit h)
  cases m with
  | halt lowered | excuse lowered => exact absurd running (by simp [lowered])
  | goOn _ below => exact absurd count_eq (Nat.ne_of_gt below)
  | opened dials =>
      exact absurd (Phase.isOpen_of_dials (dials.imp_right fun h => ⟨_, h⟩)).1 hopen
  | refused dials => exact absurd (Phase.isOpen_of_dials dials).1 hopen
  | _ => first
    | exact ⟨rfl, rfl⟩
    | exact absurd rfl hopen

theorem Counted.link {patience : Patience} {count : Nat} {taken : List Failure} {r : Reader}
    {feed : Feed} {link link' : Link} (h : Counted patience taken r feed link count)
    (hup : link'.up = true → link.up = true) : Counted patience taken r feed link' count :=
  { h with
    down := fun hphase => Bool.eq_false_iff.2 fun hlink => by
      rw [h.down hphase] at hup
      cases hup hlink }

theorem Counted.take {patience : Patience} {count : Nat} {taken : List Failure} {r : Reader}
    {feed : Feed} {link : Link} (h : Counted patience taken r feed link count) :
    Counted patience (taken ++ feed.notice.toList) r { feed with notice := none } link count :=
  { h with posted := by rw [← h.posted, Option.toList_none, List.append_nil] }

end Telemetry

open Telemetry (Counted Feed Phase Reader Sign failuresSince failuresSince_append)

namespace Arm

def takes (a : Arm) : Turn → List Failure
  | .take => a.feed.notice.toList
  | _ => []

def taken (a : Arm) : List Turn → List Failure
  | [] => []
  | t :: rest => a.takes t ++ (a.turn t).taken rest

/-- The notices left in some turns: those that were taken, and the one that is still there. -/
def notices (a : Arm) (turns : List Turn) : List Failure :=
  a.taken turns ++ (a.course turns).feed.notice.toList

def strides (a : Arm) : Turn → Nat
  | .read => a.stepReader.isSome.toNat
  | _ => 0

def moves (a : Arm) : List Turn → Nat
  | [] => 0
  | t :: rest => a.strides t + (a.turn t).moves rest

theorem taken_concat (a : Arm) (turns : List Turn) (t : Turn) :
    a.taken (turns ++ [t]) = a.taken turns ++ (a.course turns).takes t := by
  induction turns generalizing a with
  | nil => simp [taken, course]
  | cons u rest ih =>
      rw [List.cons_append, taken, taken, ih, List.append_assoc]
      rfl

def Counts (a : Arm) (taken : List Failure) (count : Nat) : Prop :=
  ∃ r, a.reader = some r ∧ Counted a.config.patience taken r a.feed a.bench.realtime count

/-- The loss of the link is not counted. -/
theorem foldl_tally_signs (a : Arm) (t : Turn) (count : Nat) :
    (a.signs t).foldl Sign.tally count = (a.deeds t).foldl Sign.tally count := by
  rw [signs]
  rw [List.foldl_append]
  split <;> rfl

theorem Counts.spares {a b : Arm} {taken : List Failure} {count : Nat} (h : a.Counts taken count)
    (hab : a.Spares b) : b.Counts taken count := by
  obtain ⟨r, hr, hc⟩ := h
  refine ⟨r, hab.reader.trans hr, ?_⟩
  rw [hab.config, hab.feed]
  exact hc.link hab.realtime.up

theorem Counts.turn {a : Arm} {taken : List Failure} {count : Nat} (h : a.Counts taken count)
    {t : Turn} (ht : t.upholds = true) :
    (a.turn t).Counts (taken ++ a.takes t) ((a.signs t).foldl Sign.tally count) := by
  rw [foldl_tally_signs]
  -- Only a turn that takes the notice adds to what has been taken.
  have hsame {b : Arm} {count : Nat} (hb : b.Counts taken count) :
      b.Counts (taken ++ []) count :=
    (List.append_nil taken).symm ▸ hb
  cases t with
  | lower | join => cases ht
  | read =>
      rcases a.turn_read with ⟨-, hturn, hdeeds⟩ | ⟨r, r', feed, link, hr, hm, hturn⟩
      · rw [hturn, hdeeds]
        exact hsame h
      · obtain ⟨r₀, hr₀, hc⟩ := h
        obtain rfl : r = r₀ := Option.some.inj (hr.symm.trans hr₀)
        rw [hturn]
        exact hsame ⟨r', rfl, hc.move hm⟩
  | take =>
      obtain ⟨r, hr, hc⟩ := h
      exact ⟨r, hr, hc.take⟩
  | start =>
      obtain ⟨r, hr, hc⟩ := h
      have hdeeds : a.deeds .start = [] := by rw [deeds, hr, Option.isSome_some, if_pos rfl]
      rw [hdeeds, Arm.turn, startReader_of_some hr]
      exact hsame ⟨r, hr, hc⟩
  | keep => exact hsame (h.spares a.spares_keep)
  | aside event => exact hsame (h.spares (a.spares_aside event))
  | pass milliseconds => exact hsame h
  | sway link =>
      obtain ⟨r, hr, hc⟩ := h
      exact hsame ⟨r, hr, hc.link fun hup => (Bool.and_eq_true_iff.1 hup).1⟩
  | cut =>
      obtain ⟨r, hr, hc⟩ := h
      exact hsame ⟨r, hr, hc.link (Link.leftAlone_close _).up⟩

/-- A reader that has just been started has counted nothing. -/
theorem counts_startReader {a : Arm} (h : a.reader = none) : a.startReader.Counts [] 0 := by
  have hstart : a.startReader =
      { a with
        feed := { a.feed with running := true, status := .disconnected, notice := none }
        reader := some .start } := by
    simp [startReader, h]
  rw [hstart]
  refine ⟨.start, rfl, ⟨rfl, rfl, Nat.zero_le _, ?_, ?_, ?_, ?_, rfl⟩⟩ <;> simp [Reader.start,
    Phase.isOpen, Phase.hasGivenUp, Phase.isShown, Phase.isDown]

theorem Counts.course {a : Arm} {turns : List Turn} (h : a.Counts [] 0)
    (hturns : ∀ t ∈ turns, t.upholds = true) :
    (a.course turns).Counts (a.taken turns) (failuresSince (a.trail turns)) := by
  induction turns using List.reverseRecOn with
  | nil => exact h
  | append_singleton turns t ih =>
      rw [course_concat, taken_concat, trail_concat, failuresSince_append]
      exact (ih fun u hu => hturns u (List.mem_append_left _ hu)).turn
        (hturns t (List.mem_append_right _ (List.mem_singleton_self t)))

/-! ## At the limit -/

/-- How many steps are left to the reader, if it has reached the limit. -/
def stepsLeft (a : Arm) : Nat :=
  match a.reader with
  | some r => r.phase.stepsLeft
  | none => 0

/-- The reader has reached the limit. -/
def Spent (a : Arm) : Prop :=
  ∃ taken, a.Counts taken a.config.patience.trials

theorem Spent.turn {a : Arm} (h : a.Spent) {t : Turn} (ht : t.upholds = true) :
    (a.turn t).Spent ∧ (∀ s ∈ a.signs t, s.isUse = false) ∧
      (a.turn t).stepsLeft + a.strides t = a.stepsLeft := by
  obtain ⟨taken, hcounts⟩ := h
  have hnext := hcounts.turn ht
  -- A turn at the limit has no deeds, so all it can show is the loss of the link.
  have hquiet (hdeeds : a.deeds t = []) :
      (a.turn t).Spent ∧ ∀ s ∈ a.signs t, s.isUse = false := by
    rw [foldl_tally_signs, hdeeds, List.foldl_nil, ← a.config_turn t] at hnext
    refine ⟨⟨_, hnext⟩, fun s hs => ?_⟩
    rw [signs, hdeeds, List.nil_append] at hs
    split at hs
    · rw [List.mem_singleton.1 hs]
      rfl
    · cases hs
  obtain ⟨r, hr, hc⟩ := hcounts
  cases t with
  | lower | join => cases ht
  | read =>
      rcases a.turn_read with ⟨hstuck, hturn, hdeeds⟩ | ⟨r₀, r', feed, link, hr₀, hm, hturn⟩
      · refine ⟨(hquiet hdeeds).1, (hquiet hdeeds).2, ?_⟩
        rw [strides, hstuck, hturn]
        rfl
      · obtain rfl : r = r₀ := Option.some.inj (hr.symm.trans hr₀)
        obtain ⟨hdeeds, hleft⟩ := hc.spend hm
        refine ⟨(hquiet hdeeds).1, (hquiet hdeeds).2, ?_⟩
        have hsome : a.stepReader.isSome = true := by
          cases hs : a.stepReader with
          | some b => rfl
          | none =>
              -- A reader that takes no step stays where it is, but this one moved on.
              have hsame : some r = some r' := by
                have := congrArg Arm.reader hturn
                rw [Arm.turn, hs] at this
                exact hr.symm.trans this
              rw [Option.some.inj hsame] at hleft
              omega
        rw [strides, hsome, hturn, stepsLeft, stepsLeft, hr]
        exact hleft
  | start =>
      have hturn : a.turn .start = a := startReader_of_some hr
      refine ⟨(hquiet ?_).1, (hquiet ?_).2, ?_⟩
      · simp [deeds, hr]
      · simp [deeds, hr]
      · rw [hturn]
        rfl
  | keep =>
      refine ⟨(hquiet rfl).1, (hquiet rfl).2, ?_⟩
      rw [stepsLeft, a.spares_keep.reader]
      rfl
  | aside event =>
      refine ⟨(hquiet rfl).1, (hquiet rfl).2, ?_⟩
      rw [stepsLeft, (a.spares_aside event).reader]
      rfl
  | pass | sway | cut | take => exact ⟨(hquiet rfl).1, (hquiet rfl).2, rfl⟩

theorem Spent.course {a : Arm} (h : a.Spent) {turns : List Turn}
    (hturns : ∀ t ∈ turns, t.upholds = true) :
    (a.course turns).Spent ∧ (∀ s ∈ a.trail turns, s.isUse = false) ∧
      (a.course turns).stepsLeft + a.moves turns = a.stepsLeft := by
  induction turns generalizing a with
  | nil =>
      refine ⟨h, fun s hs => ?_, rfl⟩
      cases hs
  | cons t rest ih =>
      obtain ⟨hspent, hsigns, hleft⟩ := h.turn (hturns t List.mem_cons_self)
      obtain ⟨hspents, htrail, hlefts⟩ := ih hspent fun u hu => hturns u (List.mem_cons_of_mem t hu)
      refine ⟨hspents, fun s hs => ?_, ?_⟩
      · rcases List.mem_append.1 hs with hs | hs
        · exact hsigns s hs
        · exact htrail s hs
      · show ((a.turn t).course rest).stepsLeft + a.moves (t :: rest) = a.stepsLeft
        rw [moves]
        omega

theorem isSome_stepReader {a : Arm} {r : Reader} (hr : a.reader = some r) :
    a.stepReader.isSome =
      (r.step a.config.patience a.clock a.feed a.bench.realtime).isSome := by
  cases hs : r.step a.config.patience a.clock a.feed a.bench.realtime <;>
    simp [stepReader, hr, hs]

/-- A reader at the limit is at its end or can go on, if only after a rest. -/
theorem Spent.goes_on {a : Arm} (h : a.Spent) :
    a.readerEnded = true ∨ ∃ wait, ∀ time ≥ wait, (a.turn (.pass time)).stepReader.isSome = true := by
  obtain ⟨taken, ⟨n, phase⟩, hr, hc⟩ := h
  have hopen : phase.isOpen ≠ true := fun h => Nat.lt_irrefl _ (hc.lt_limit h)
  cases phase with
  | finished =>
      left
      rw [readerEnded]
      rw [hr]
      rfl
  | resting wake =>
      refine .inr ⟨wake, fun time htime => ?_⟩
      have hwake : ¬ (a.turn (.pass time)).clock < wake :=
        Nat.not_lt.2 (Nat.le_trans htime (Nat.le_add_left _ _))
      rw [isSome_stepReader (a := a.turn (.pass time)) hr]
      simp [Reader.step, hwake]
  | probing | announcing | dialing | hanging | connected | gathering | taking =>
      exact absurd rfl hopen
  | _ => exact .inr ⟨0, fun time _ => isSome_stepReader (a := a.turn (.pass time)) hr⟩

theorem Spent.ended {a : Arm} (h : a.Spent) (hleft : a.stepsLeft = 0) :
    a.isFatal = true ∧ a.readerEnded = true := by
  obtain ⟨taken, ⟨n, phase⟩, hr, hc⟩ := h
  have hopen : phase.isOpen ≠ true := fun h => Nat.lt_irrefl _ (hc.lt_limit h)
  have hphase : phase = .finished := by
    rw [stepsLeft, hr] at hleft
    cases phase <;> first
      | rfl
      | exact absurd rfl hopen
      | cases hleft
  subst hphase
  refine ⟨?_, ?_⟩
  · rw [isFatal, hc.shown.2 rfl]
    rfl
  · rw [readerEnded, hr]
    rfl

theorem Counts.gaveUp {a : Arm} {taken : List Failure} {count : Nat} (h : a.Counts taken count)
    (hfatal : a.isFatal = true) : a.GaveUp ∧ count = a.config.patience.trials := by
  obtain ⟨r, hr, hc⟩ := h
  have hstatus : a.feed.status = .fatal := of_decide_eq_true hfatal
  have hshown := hc.shown.1 hstatus
  have hdone : r.phase.isDown = true ∧ r.phase.hasGivenUp = true := by
    cases hphase : r.phase <;> rw [hphase] at hshown <;> first
      | exact ⟨rfl, rfl⟩
      | cases hshown
  refine ⟨⟨hstatus, hc.down hdone.1, fun r' hr' => ?_⟩, hc.given_up hdone.2⟩
  obtain rfl : r = r' := Option.some.inj (hr.symm.trans hr')
  exact hshown

/-- A reader at the limit needs seven more steps at most to be at its end. -/
theorem Spent.wears_out {a : Arm} (h : a.Spent) {more : List Turn}
    (hmore : ∀ t ∈ more, t.upholds = true) (hmoves : 7 ≤ a.moves more) :
    (a.course more).isFatal = true ∧ (a.course more).readerEnded = true := by
  obtain ⟨hspent, -, hleft⟩ := h.course hmore
  have hle : a.stepsLeft ≤ 7 := by
    rw [stepsLeft]
    split
    · exact Phase.stepsLeft_le _
    · exact Nat.zero_le 7
  exact hspent.ended (by omega)

theorem Counts.notices_eq {a : Arm} {taken : List Failure} {count : Nat}
    (h : a.Counts taken count) :
    taken ++ a.feed.notice.toList =
      if a.readerEnded then [.gaveUp a.config.patience.trials] else [] := by
  obtain ⟨r, hr, hc⟩ := h
  rw [hc.posted, readerEnded, hr]
  simp

/-- A reader gives up exactly when it has come to the limit: it never counts beyond,
it shows that it gave up only there, and when it is there it needs no more than seven
steps, of which none uses the link and none waits for more than a rest. The one notice
is then left, starting it again does nothing, and until a start comes behind a stop
nobody dials the link or takes anything off it. -/
theorem gives_up_exactly_at_limit {a : Arm} (fresh : a.reader = none) (turns : List Turn)
    (upheld : ∀ t ∈ turns, t.upholds = true) :
    let start := a.startReader
    let now := start.course turns
    let limit := a.config.patience.trials
    let count := failuresSince (start.trail turns)
    (∃ r, now.reader = some r ∧ r.failures ≤ limit ∧
      count = r.failures + r.phase.unheard ∧ count ≤ limit) ∧
    (now.isFatal = true → count = limit ∧ now.bench.realtime.up = false) ∧
    (count = limit → ∀ more, (∀ t ∈ more, t.upholds = true) →
      (∀ s ∈ now.trail more, s.isUse = false) ∧
      (7 ≤ now.moves more →
        (now.course more).isFatal = true ∧ (now.course more).readerEnded = true) ∧
      ((now.course more).readerEnded = true ∨
        ∃ wait, ∀ time ≥ wait, ((now.course more).turn (.pass time)).stepReader.isSome = true)) ∧
    start.notices turns = (if now.readerEnded then [.gaveUp limit] else []) ∧
    now.startReader = now ∧
    (now.isFatal = true → ∀ steps, NoRestart (steps.flatMap Step.events) →
      ∀ result ∈ now.takeAll steps,
        result.2.isFatal = true ∧ result.2.isWell = false ∧
        now.bench.realtime.LeftAlone result.2.bench.realtime) := by
  intro start now limit count
  have hcounts : now.Counts (start.taken turns) count := (counts_startReader fresh).course upheld
  have hlimit : now.config.patience.trials = limit := by
    show (start.course turns).config.patience.trials = limit
    rw [config_course]
    show a.startReader.config.patience.trials = limit
    rw [startReader]
    split <;> rfl
  refine ⟨?_, fun hfatal => ?_, fun hcount more hmore => ?_, ?_, ?_, fun hfatal steps hsteps => ?_⟩
  · obtain ⟨r, hr, hc⟩ := hcounts
    have hle := hc.le_limit
    have heq := hc.count_eq
    rw [hlimit] at hle
    exact ⟨r, hr, by omega, heq, hle⟩
  · obtain ⟨hgaveUp, hcount⟩ := hcounts.gaveUp hfatal
    exact ⟨hcount.trans hlimit, hgaveUp.down⟩
  · have hspent : now.Spent := ⟨_, (hcount.trans hlimit.symm) ▸ hcounts⟩
    obtain ⟨hlater, htrail, -⟩ := hspent.course hmore
    exact ⟨htrail, hspent.wears_out hmore, hlater.goes_on⟩
  · rw [← hlimit]
    exact hcounts.notices_eq
  · obtain ⟨r, hr, -⟩ := hcounts
    exact startReader_of_some hr
  · obtain ⟨r, hr, -⟩ := id hcounts
    intro result hresult
    have hsecluded : now.Secluded (steps.flatMap Step.events) := by
      refine ⟨hsteps, fun hnone => ?_⟩
      rw [hr] at hnone
      cases hnone
    obtain ⟨hgone, hleft⟩ := (hcounts.gaveUp hfatal).1.takeAll hsecluded result hresult
    exact ⟨hgone.isFatal, hgone.isWell, hleft⟩

/-- A reader whose dials are all refused gives up behind the third. -/
theorem gives_up_behind_third_refusal :
    let config := Config.forAddress "controller"
    let attempt := [Turn.read, .read, .read, .read, .read, .pass 1000, .read]
    let turns := attempt ++ attempt ++ attempt ++ [.read, .read, .read, .read, .take]
    let start := (Arm.new config config.unreachable).startReader
    let now := start.course turns
    failuresSince (start.trail turns) = 3 ∧ start.notices turns = [.gaveUp 3] ∧
      (∀ more, (∀ t ∈ more, t.upholds = true) → ∀ s ∈ now.trail more, s.isUse = false) ∧
      ∀ steps, NoRestart (steps.flatMap Step.events) →
        ∀ result ∈ now.takeAll steps, result.2.isWell = false := by
  intro config attempt turns start now
  have hcount : failuresSince (start.trail turns) = 3 := by decide +kernel
  have hfatal : now.isFatal = true := by decide +kernel
  have hended : now.readerEnded = true := by decide +kernel
  obtain ⟨-, -, hspent, hnotices, -, hstays⟩ :=
    gives_up_exactly_at_limit (a := Arm.new config config.unreachable) rfl turns
      (by decide)
  rw [if_pos hended] at hnotices
  exact ⟨hcount, hnotices, fun more hmore => (hspent hcount more hmore).1,
    fun steps hsteps result hresult => (hstays hfatal steps hsteps result hresult).2.1⟩

end Arm

end ArmLink
