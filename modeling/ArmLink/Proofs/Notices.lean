import ArmLink.Proofs.Reassembly

/-!
# Notices

A reader that gives up leaves one notice. The notice outlives its reader, a start
does nothing while the old reader is in place, and there is room for one notice
only, so what becomes of a notice is a matter of the whole history.

The history is read off the arm from outside. `marks` compares the arm in front of
a turn with the arm behind it: a reader has appeared, the status has become
`fatal`, a notice lies where none lay, and a turn that takes the notice has been
given one. The log of a course is cut where readers appear, and each piece is the
log of one run.

A run has only four logs, each a prefix of the next, and `Stands` says what the arm
looks like behind each of them. Only behind the second, between the status and the
notice, is the reader still to take a step, and no other reader can be started
there. That is why a run that is over has left its notice if it gave up.
-/

namespace ArmLink

open ArmLink.Telemetry (Feed Phase Reader Sign)

/-- A move of a reader shows the end, leaves the notice, or does nothing of the kind. -/
theorem Telemetry.Reader.Moves.shows {patience : Patience} {now : Nat} {r r' : Reader}
    {feed feed' : Feed} {link link' : Link} {signs : List Sign}
    (m : Moves patience now r feed link signs r' feed' link') :
    (r.phase = .marking ∧ r' = ⟨r.failures, .posting⟩ ∧
        feed' = { feed with status := .fatal }) ∨
      (r.phase = .posting ∧ r' = ⟨r.failures, .finished⟩ ∧
        feed' = { feed with notice := feed.notice.or (some (.gaveUp patience.trials)) }) ∨
      (r.phase ≠ .posting ∧ r'.phase ≠ .posting ∧ feed'.notice = feed.notice ∧
        (feed'.status = feed.status ∨ feed'.status ≠ .fatal)) := by
  cases m with
  | mark => exact .inl ⟨rfl, rfl, rfl⟩
  | post => exact .inr (.inl ⟨rfl, rfl, rfl⟩)
  | opened dials =>
      rcases dials with rfl | rfl <;> exact .inr (.inr ⟨by simp, by simp, rfl, .inl rfl⟩)
  | refused dials =>
      rcases dials with rfl | ⟨_, rfl⟩ <;> exact .inr (.inr ⟨by simp, by simp, rfl, .inl rfl⟩)
  | announce | lie | stream | lower =>
      exact .inr (.inr ⟨by simp, by simp, rfl, .inr (by simp)⟩)
  | _ => exact .inr (.inr ⟨by simp, by simp, rfl, .inl rfl⟩)

/-- Only a reader that has not finished moves. -/
theorem Telemetry.Reader.Moves.unfinished {patience : Patience} {now : Nat} {r r' : Reader}
    {feed feed' : Feed} {link link' : Link} {signs : List Sign}
    (m : Moves patience now r feed link signs r' feed' link') : r.phase ≠ .finished := by
  cases m with
  | opened dials => rcases dials with rfl | rfl <;> simp
  | refused dials => rcases dials with rfl | ⟨_, rfl⟩ <;> simp
  | _ => simp

/-- Something about notices that shows from outside. -/
inductive Mark where
  /-- A reader is there where none was. -/
  | began
  /-- The status has become `fatal`. -/
  | gaveUp
  | posted (notice : Failure)
  /-- Whoever asked for the notice was given this one. -/
  | taken (notice : Failure)
  deriving DecidableEq, Repr

def Mark.isBegan : Mark → Bool
  | .began => true
  | _ => false

/-- A notice that has come to lie where none lay. -/
def Mark.ofNotices : Option Failure → Option Failure → List Mark
  | none, some notice => [.posted notice]
  | _, _ => []

namespace Arm

/-- What has changed between two arms. -/
def changes (a b : Arm) : List Mark :=
  (if a.reader.isNone && b.reader.isSome then [.began] else [])
    ++ (if !a.isFatal && b.isFatal then [.gaveUp] else [])
    ++ Mark.ofNotices a.feed.notice b.feed.notice

/-- What a turn hands out. -/
def handsOut (a : Arm) : Turn → List Mark
  | .take => a.takeNotice.1.toList.map .taken
  | _ => []

def marks (a : Arm) (t : Turn) : List Mark :=
  a.changes (a.turn t) ++ a.handsOut t

def log (a : Arm) : List Turn → List Mark
  | [] => []
  | t :: rest => a.marks t ++ (a.turn t).log rest

/-- The log of each run: in front, that of the time before the first one. -/
def runs (log : List Mark) : List (List Mark) :=
  log.splitOnP Mark.isBegan

theorem log_concat (a : Arm) (turns : List Turn) (t : Turn) :
    a.log (turns ++ [t]) = a.log turns ++ (a.course turns).marks t := by
  induction turns generalizing a with
  | nil => simp [log, course]
  | cons u rest ih =>
      rw [List.cons_append, log, log, ih, List.append_assoc]
      rfl

/-- What a run that is not over yet has shown, and what the arm looks like behind it. -/
inductive Stands (a : Arm) : List Mark → Prop where
  | calm (status : a.feed.status ≠ .fatal) (notice : a.feed.notice = none)
      (reader : ∀ n, a.reader ≠ some ⟨n, .posting⟩) : Stands a []
  | resigned {n : Nat} (status : a.feed.status = .fatal) (notice : a.feed.notice = none)
      (reader : a.reader = some ⟨n, .posting⟩) : Stands a [.gaveUp]
  | told {farewell : Failure} (is : farewell = .gaveUp a.config.patience.trials)
      (status : a.feed.status = .fatal) (notice : a.feed.notice = some farewell)
      (reader : a.readerEnded = true) : Stands a [.gaveUp, .posted farewell]
  | heard {farewell : Failure} (is : farewell = .gaveUp a.config.patience.trials)
      (status : a.feed.status = .fatal) (notice : a.feed.notice = none)
      (reader : a.readerEnded = true) : Stands a [.gaveUp, .posted farewell, .taken farewell]

section

variable {a b : Arm} {run : List Mark}

/-- Nothing shows when no reader appears, the status does not become `fatal` and no notice is
left. -/
theorem changes_eq_nil (hreader : b.reader = none ∨ b.reader = a.reader)
    (hstatus : b.feed.status = .fatal → a.feed.status = .fatal)
    (hnotice : b.feed.notice = none ∨ b.feed.notice = a.feed.notice) : a.changes b = [] := by
  have hbegan : (a.reader.isNone && b.reader.isSome) = false := by
    rcases hreader with h | h <;> rw [h]
    · exact Bool.and_false _
    · cases a.reader <;> rfl
  have hfatal : (!a.isFatal && b.isFatal) = false := by
    rw [isFatal, isFatal]
    by_cases h : b.feed.status = .fatal
    · rw [hstatus h]
      rfl
    · rw [beq_false_of_ne h, Bool.and_false]
  have hposted : Mark.ofNotices a.feed.notice b.feed.notice = [] := by
    rcases hnotice with h | h <;> rw [h] <;> cases a.feed.notice <;> rfl
  rw [changes, hbegan, hfatal, hposted]
  rfl

theorem handsOut_of_ne {t : Turn} (ht : t ≠ .take) : a.handsOut t = [] := by
  cases t with
  | take => exact absurd rfl ht
  | _ => rfl

theorem marks_of_ne {t : Turn} (ht : t ≠ .take) : a.marks t = a.changes (a.turn t) := by
  rw [marks, handsOut_of_ne ht, List.append_nil]

/-- The run goes on to `b` and adds some marks to its log. -/
def Extends (run : List Mark) (b : Arm) (marks : List Mark) : Prop :=
  (∀ m ∈ marks, m.isBegan = false) ∧ b.Stands (run ++ marks)

theorem extends_nil {marks : List Mark} (hmarks : marks = []) (h : b.Stands run) :
    Extends run b marks := by
  subst hmarks
  refine ⟨by simp, ?_⟩
  rw [List.append_nil]
  exact h

theorem extends_one {marks : List Mark} {m : Mark} (hm : m.isBegan = false) (hmarks : marks = [m])
    (h : b.Stands (run ++ [m])) : Extends run b marks := by
  subst hmarks
  exact ⟨by simpa using hm, h⟩

/-- What leaves the reader and what it shares alone adds nothing. -/
theorem Stands.keep (h : a.Stands run) (hconfig : b.config = a.config)
    (hreader : b.reader = a.reader) (hstatus : b.feed.status = a.feed.status)
    (hnotice : b.feed.notice = a.feed.notice) : Extends run b (a.changes b) := by
  refine extends_nil (changes_eq_nil (.inr hreader) (fun hb => hstatus ▸ hb) (.inr hnotice)) ?_
  have hended : b.readerEnded = a.readerEnded := by rw [readerEnded, readerEnded, hreader]
  cases h with
  | calm status notice reader =>
      exact .calm (hstatus ▸ status) (hnotice.trans notice) (hreader ▸ reader)
  | resigned status notice reader =>
      exact .resigned (hstatus.trans status) (hnotice.trans notice) (hreader.trans reader)
  | told is status notice reader =>
      exact .told (by rw [hconfig]; exact is) (hstatus.trans status) (hnotice.trans notice)
        (hended.trans reader)
  | heard is status notice reader =>
      exact .heard (by rw [hconfig]; exact is) (hstatus.trans status) (hnotice.trans notice)
        (hended.trans reader)

theorem Stands.spares (h : a.Stands run) (hab : a.Spares b) : Extends run b (a.changes b) :=
  h.keep hab.config hab.reader (by rw [hab.feed]) (by rw [hab.feed])

/-- Behind `gaveUp` alone the reader is still to leave its notice, and it finds room for it. -/
theorem Stands.read (h : a.Stands run) : Extends run (a.turn .read) (a.marks .read) := by
  rw [marks_of_ne (t := .read) (by simp)]
  rcases a.turn_read with ⟨-, hturn, -⟩ | ⟨r, r', feed, link, hr, hm, hturn⟩
  · rw [hturn]
    exact h.keep rfl rfl rfl rfl
  · rw [hturn]
    have hshows := hm.shows
    have hunended : a.readerEnded ≠ true := by
      simpa [readerEnded, hr] using hm.unfinished
    cases h with
    | calm status notice reader =>
        rcases hshows with ⟨-, rfl, rfl⟩ | ⟨hbefore, -, -⟩ | ⟨-, hafter, hnotice, hstatus⟩
        · refine extends_one (m := .gaveUp) rfl ?_ (.resigned rfl notice rfl)
          simp [changes, hr, isFatal, status, notice, Mark.ofNotices]
        · -- No reader is about to leave a notice before it has shown the end.
          exact absurd (by rw [hr, ← hbefore]) (reader r.failures)
        · have hcalm : feed.status ≠ .fatal := by
            rcases hstatus with hsame | hother
            · rw [hsame]
              exact status
            · exact hother
          refine extends_nil ?_ (.calm hcalm (hnotice.trans notice) fun n hn => hafter ?_)
          · simp [changes, hr, isFatal, hcalm, hnotice, notice, Mark.ofNotices]
          · rw [Option.some.inj hn]
    | resigned status notice reader =>
        obtain rfl := Option.some.inj (hr.symm.trans reader)
        rcases hshows with ⟨hbefore, -, -⟩ | ⟨-, rfl, rfl⟩ | ⟨hbefore, -⟩
        · cases hbefore
        · refine extends_one (m := .posted (.gaveUp a.config.patience.trials)) rfl ?_
            (.told rfl status (by rw [notice]; rfl) rfl)
          simp [changes, hr, isFatal, status, notice, Mark.ofNotices]
        · exact absurd rfl hbefore
    | told _ _ _ reader => exact absurd reader hunended
    | heard _ _ _ reader => exact absurd reader hunended

theorem Stands.take (h : a.Stands run) : Extends run (a.turn .take) (a.marks .take) := by
  have hmarks : a.marks .take = a.feed.notice.toList.map .taken := by
    have hchanges : a.changes (a.turn .take) = [] := changes_eq_nil (.inr rfl) id (.inl rfl)
    rw [marks, hchanges]
    rfl
  cases h with
  | calm status notice reader =>
      exact extends_nil (by rw [hmarks, notice]; rfl) (.calm status rfl reader)
  | resigned status notice reader =>
      exact extends_nil (by rw [hmarks, notice]; rfl) (.resigned status rfl reader)
  | told is status notice reader =>
      exact extends_one (m := .taken _) rfl (by rw [hmarks, notice]; rfl)
        (.heard is status rfl reader)
  | heard is status notice reader =>
      exact extends_nil (by rw [hmarks, notice]; rfl) (.heard is status rfl reader)

/-- A reader that is put away leaves its notice where it is. -/
theorem Stands.join (h : a.Stands run) : Extends run (a.turn .join) (a.marks .join) := by
  rw [marks_of_ne (t := .join) (by simp), turn]
  split
  · next hended =>
      rw [lower]
      split
      · next hfatal =>
          have hstatus : a.feed.status = .fatal := of_decide_eq_true hfatal
          refine extends_nil (changes_eq_nil (.inl rfl) id (.inr rfl)) ?_
          cases h with
          | calm status => exact absurd hstatus status
          | resigned _ _ reader =>
              -- It still has its notice to leave, so it has not ended and is not put away.
              rw [readerEnded, reader] at hended
              cases hended
          | told is status notice => exact .told is status notice rfl
          | heard is status notice => exact .heard is status notice rfl
      · next hfatal =>
          have hstatus : a.feed.status ≠ .fatal := fun h => hfatal (decide_eq_true h)
          refine extends_nil (changes_eq_nil (.inl rfl) (by simp) (.inr rfl)) ?_
          cases h with
          | calm _ notice => exact .calm (by simp) notice (by simp)
          | resigned status => exact absurd status hstatus
          | told _ status => exact absurd status hstatus
          | heard _ status => exact absurd status hstatus
  · exact h.keep rfl rfl rfl rfl

/-- A start begins a run, and a notice that nobody took is gone; or it does nothing. -/
theorem Stands.start (h : a.Stands run) :
    (a.marks .start = [.began] ∧ a.reader = none ∧ (a.turn .start).Stands []) ∨
      Extends run (a.turn .start) (a.marks .start) := by
  rw [marks_of_ne (t := .start) (by simp)]
  cases hr : a.reader with
  | some r =>
      rw [turn, startReader_of_some hr]
      exact .inr (h.keep rfl rfl rfl rfl)
  | none =>
      refine .inl ⟨?_, rfl, ?_⟩
      · cases hn : a.feed.notice <;>
          simp [turn, startReader, changes, hr, hn, isFatal, Mark.ofNotices]
      · simp only [turn, startReader, hr, Option.isSome_none, Bool.false_eq_true, if_false]
        exact .calm (by simp) rfl (by simp [Reader.start])

theorem Stands.turn (h : a.Stands run) (t : Turn) :
    (a.marks t = [.began] ∧ a.reader = none ∧ (a.turn t).Stands []) ∨
      Extends run (a.turn t) (a.marks t) := by
  cases t with
  | start => exact h.start
  | read => exact .inr h.read
  | take => exact .inr h.take
  | join => exact .inr h.join
  | keep =>
      rw [marks_of_ne (t := .keep) (by simp)]
      exact .inr (h.spares a.spares_keep)
  | aside event =>
      rw [marks_of_ne (t := .aside event) (by simp)]
      exact .inr (h.spares (a.spares_aside event))
  | pass | sway | cut | lower =>
      refine .inr ?_
      rw [marks_of_ne (by simp)]
      exact h.keep rfl rfl rfl rfl

/-! ## What a log says about the arm behind it -/

theorem Stands.inOrder (h : a.Stands run) :
    run <+: [.gaveUp, .posted (.gaveUp a.config.patience.trials),
      .taken (.gaveUp a.config.patience.trials)] := by
  cases h with
  | calm | resigned => simp
  | told is | heard is =>
      subst is
      simp

theorem Stands.fatal_iff (h : a.Stands run) : a.isFatal = true ↔ .gaveUp ∈ run := by
  rw [isFatal, beq_iff_eq]
  cases h with
  | calm status => simpa using status
  | resigned status | told _ status | heard _ status => simpa using status

theorem Stands.posted_iff (h : a.Stands run) :
    .gaveUp ∈ run ↔ .posted (.gaveUp a.config.patience.trials) ∈ run ∨
      ∃ n, a.reader = some ⟨n, .posting⟩ := by
  cases h with
  | calm _ _ reader => simpa using reader
  | resigned _ _ reader => simp [reader]
  | told is | heard is => simp [is]

theorem Stands.notice_eq (h : a.Stands run) :
    a.feed.notice =
      if .posted (.gaveUp a.config.patience.trials) ∈ run ∧
          .taken (.gaveUp a.config.patience.trials) ∉ run then
        some (.gaveUp a.config.patience.trials)
      else none := by
  cases h with
  | calm _ notice | resigned _ notice => simpa using notice
  | told is _ notice =>
      rw [notice]
      simp [is]
  | heard is _ notice =>
      rw [notice]
      simp [is]

theorem Stands.silent (h : a.Stands run) {n : Nat} (hr : a.reader = some ⟨n, .posting⟩) :
    a.feed.notice = none := by
  cases h with
  | calm _ notice | resigned _ notice => exact notice
  | told _ _ _ reader | heard _ _ _ reader =>
      rw [readerEnded, hr] at reader
      cases reader

theorem marks_of_posting {n : Nat} (hr : a.reader = some ⟨n, .posting⟩)
    (hnotice : a.feed.notice = none) :
    a.marks .read = [.posted (.gaveUp a.config.patience.trials)] := by
  have hturn : a.stepReader = some { a with
      reader := some ⟨n, .finished⟩
      feed := { a.feed with notice := some (.gaveUp a.config.patience.trials) } } := by
    simp [stepReader, hr, Reader.step, Reader.go, hnotice]
  rw [marks_of_ne (t := .read) (by simp), Arm.turn, hturn]
  simp [changes, hr, isFatal, hnotice, Mark.ofNotices]

theorem taken_notMem_changes (notice : Failure) : .taken notice ∉ a.changes b := by
  have hnotices : .taken notice ∉ Mark.ofNotices a.feed.notice b.feed.notice := by
    cases a.feed.notice <;> cases b.feed.notice <;> simp [Mark.ofNotices]
  simpa [changes] using hnotices

/-- A notice that nobody takes stays where it is for as long as no run begins. -/
theorem Stands.stays {notice : Failure} (h : a.Stands run) {turns : List Turn}
    (htake : ∀ t ∈ turns, t ≠ .take) (hbegan : ∀ m ∈ a.log turns, m.isBegan = false)
    (hnotice : a.feed.notice = some notice) : (a.course turns).feed.notice = some notice := by
  induction turns generalizing a run with
  | nil => exact hnotice
  | cons t rest ih =>
      have hnot : t ≠ .take := htake t List.mem_cons_self
      rcases h.turn t with ⟨hmarks, -, -⟩ | ⟨-, hnext⟩
      · have := hbegan .began (by rw [log, hmarks]; exact List.mem_cons_self)
        cases this
      · -- Whether a notice lies there is said by the log, and this turn adds no taking to it.
        have htaken (f : Failure) : .taken f ∉ a.marks t := by
          rw [marks_of_ne hnot]
          exact taken_notMem_changes f
        have hsame : (a.turn t).feed.notice = a.feed.notice := by
          rw [hnext.notice_eq, h.notice_eq, a.config_turn t]
          rw [h.notice_eq] at hnotice
          split at hnotice
          · next hposted =>
              have hkept : .taken (.gaveUp a.config.patience.trials) ∉ run ++ a.marks t := by
                rw [List.mem_append, not_or]
                exact ⟨hposted.2, htaken _⟩
              rw [if_pos hposted, if_pos ⟨List.mem_append_left _ hposted.1, hkept⟩]
          · cases hnotice
        refine ih hnext (fun u hu => htake u (List.mem_cons_of_mem t hu)) (fun m hm => ?_)
          (hsame.trans hnotice)
        exact hbegan m (List.mem_append_right _ hm)

end

/-! ## Whole histories -/

/-- The run at hand is as `Stands` has it, and every run before it was over. -/
theorem runs_course (config : Config) (bench : Bench) (turns : List Turn) :
    ∃ done run, runs ((Arm.new config bench).log turns) = done ++ [run] ∧
      (∀ old ∈ done, ∃ b : Arm, b.config = config ∧ b.reader = none ∧ b.Stands old) ∧
      ((Arm.new config bench).course turns).Stands run := by
  -- From the back: the last turn closes the run before it, or it adds to that run.
  induction turns using List.reverseRecOn with
  | nil => exact ⟨[], [], rfl, by simp, .calm nofun rfl nofun⟩
  | append_singleton turns t ih =>
      obtain ⟨done, run, hruns, hdone, hrun⟩ := ih
      have hconfig := config_course (.new config bench) turns
      rw [log_concat, course_concat]
      rcases hrun.turn t with ⟨hmarks, hnone, hnext⟩ | ⟨hmarks, hnext⟩
      · refine ⟨done ++ [run], [], ?_, fun old hold => ?_, hnext⟩
        · rw [hmarks, runs, Telemetry.splitOnP_concat .began hruns]
          rfl
        · rcases List.mem_append.1 hold with hold | hold
          · exact hdone old hold
          · obtain rfl := List.mem_singleton.1 hold
            exact ⟨_, hconfig, hnone, hrun⟩
      · exact ⟨done, _, Telemetry.splitOnP_append hmarks hruns, hdone, hnext⟩

/-- Cut where readers appear, every log says the same of each run, as far as it has come: it gave
up, left one notice, and somebody was given this notice, each at most once and in this order. A run
that is over has left its notice exactly if it gave up. If the last run gave up it has left its
notice, or its reader stands in front of the step that does so, and then finds room for it. The
notice that can be taken is that of the last run, if it was left and not taken, and it stays through
everything that is neither a taking nor the beginning of a run. -/
theorem one_notice_a_run (config : Config) (bench : Bench) (turns : List Turn) :
    let start := Arm.new config bench
    let now := start.course turns
    let notice : Failure := .gaveUp config.patience.trials
    ∃ done run, runs (start.log turns) = done ++ [run] ∧
      (∀ any ∈ done ++ [run], any <+: [.gaveUp, .posted notice, .taken notice]) ∧
      (∀ old ∈ done, .gaveUp ∈ old ↔ .posted notice ∈ old) ∧
      (now.isFatal = true ↔ .gaveUp ∈ run) ∧
      (.gaveUp ∈ run ↔ .posted notice ∈ run ∨ ∃ n, now.reader = some ⟨n, .posting⟩) ∧
      (∀ n, now.reader = some ⟨n, .posting⟩ →
        now.feed.notice = none ∧ now.marks .read = [.posted notice]) ∧
      (now.takeNotice.1 =
        if .posted notice ∈ run ∧ .taken notice ∉ run then some notice else none) ∧
      ∀ more, (∀ t ∈ more, t ≠ .take) → (∀ m ∈ now.log more, m.isBegan = false) →
        ∀ kept, now.takeNotice.1 = some kept → (now.course more).takeNotice.1 = some kept := by
  intro start now notice
  obtain ⟨done, run, hruns, hdone, hrun⟩ := runs_course config bench turns
  have hconfig : now.config = config := config_course start turns
  have hnotice : notice = .gaveUp now.config.patience.trials := by rw [hconfig]
  refine ⟨done, run, hruns, fun any hany => ?_, fun old hold => ?_, hrun.fatal_iff, ?_,
    fun n hr => ?_, ?_, fun more htake hbegan kept hkept => hrun.stays htake hbegan hkept⟩
  · rcases List.mem_append.1 hany with hold | hlast
    · obtain ⟨b, rfl, -, hb⟩ := hdone any hold
      exact hb.inOrder
    · obtain rfl := List.mem_singleton.1 hlast
      rw [hnotice]
      exact hrun.inOrder
  · obtain ⟨b, rfl, hnone, hb⟩ := hdone old hold
    simpa [hnone] using hb.posted_iff
  · rw [hnotice]
    exact hrun.posted_iff
  · rw [hnotice]
    exact ⟨hrun.silent hr, marks_of_posting hr (hrun.silent hr)⟩
  · have heq := hrun.notice_eq
    rw [hconfig] at heq
    exact heq

/-- Two runs in which every dial is refused. Nobody takes the notice of the first. -/
example :
    let config := { Config.forAddress "controller" with
      patience := { Patience.standard with trials := 1 } }
    let reads : List Turn := List.replicate 5 .read
    let run : List Turn := [.start] ++ reads ++ [.pass 1000] ++ reads
    let notice : Failure := .gaveUp 1
    runs ((Arm.new config config.unreachable).log
      (run ++ [.lower, .cut, .join] ++ run ++ [.take, .take])) =
      [[], [.gaveUp, .posted notice], [.gaveUp, .posted notice, .taken notice]] := by
  decide +kernel

end Arm

end ArmLink
