import ArmLink.Telemetry.Reader

/-!
# What a reader's steps can be

Two theories are about the reader, one of what it counts and one of what it
publishes, and both are about histories. The history of a reader is what its uses
of the link came to, and `signs` says what the step at hand adds to it: it is
computed from what the link answers and from what is published, never from the
reader's own count, so a theorem that compares the two says something.

`Moves` lists the steps one by one, each with the guard under which it is taken
and the sign it gives. It says all that a step can do, and `moves_of_step` is the
only place where the step itself is opened. An invariant of the reader is a case
analysis over `Moves`.
-/

namespace ArmLink.Telemetry

/-- Something that shows in the history of the realtime link. -/
inductive Sign where
  | began
  | opened
  | refused
  | handed (bytes : List UInt8)
  /-- Nothing more came for the block that has these bytes. -/
  | quiet (got : List UInt8)
  | broken
  /-- A block was a frame, and this is its snapshot. -/
  | published (snapshot : Snapshot)
  /-- A block was not a frame. -/
  | discarded (block : List UInt8)
  | lost
  deriving DecidableEq, Repr

/-- Whether the sign is that of a dial or of a receive. -/
def Sign.isUse : Sign → Bool
  | .opened | .refused | .handed _ | .quiet _ | .broken => true
  | _ => false

def Dialed.signs : Dialed → List Sign
  | .connected => [.opened]
  | .failed _ => [.refused]
  | .waiting => []

def Received.signs (got : List UInt8) : Received → List Sign
  | .data bytes => [.handed bytes]
  | .quiet => [.quiet got]
  | .failed _ => [.broken]
  | .waiting => []

namespace Reader

/-- What the next step of a reader adds to the history. -/
def signs (patience : Patience) (r : Reader) (feed : Feed) (link : Link) : List Sign :=
  match r.phase with
  | .dialing => Dialed.signs link.dial.1
  | .hanging cuts => if link.cuts ≠ cuts then [.refused] else Dialed.signs link.dial.1
  | .gathering got =>
    if patience.receive = 0 then [.quiet got]
    else if frameSize ≤ got.length then []
    else Received.signs got (link.receive (frameSize - got.length)).1
  | .taking block =>
    match feed.snapshot.take block with
    | (snapshot, true) => [.published snapshot]
    | (_, false) => [.discarded block]
  | _ => []

/-- The steps of a reader at a time: from where, with which signs, to where. -/
inductive Moves (patience : Patience) (now : Nat) :
    Reader → Feed → Link → List Sign → Reader → Feed → Link → Prop where
  | halt {n feed link} (running : feed.running = false) :
      Moves patience now ⟨n, .looking⟩ feed link [] ⟨n, .finished⟩ feed link
  | giveUp {n feed link} (running : feed.running = true) (limit : patience.trials ≤ n) :
      Moves patience now ⟨n, .looking⟩ feed link [] ⟨n, .yielding⟩ feed link
  | goOn {n feed link} (running : feed.running = true) (limit : n < patience.trials) :
      Moves patience now ⟨n, .looking⟩ feed link [] ⟨n, .probing⟩ feed link
  | yield {n feed link} :
      Moves patience now ⟨n, .yielding⟩ feed link [] ⟨n, .marking⟩ feed link.close
  | mark {n feed link} :
      Moves patience now ⟨n, .marking⟩ feed link []
        ⟨n, .posting⟩ { feed with status := .fatal } link
  | post {n feed link} :
      Moves patience now ⟨n, .posting⟩ feed link [] ⟨n, .finished⟩
        { feed with notice := feed.notice.or (some (.gaveUp patience.trials)) } link
  | live {n feed link} (up : link.up = true) :
      Moves patience now ⟨n, .probing⟩ feed link [] ⟨n, .gathering []⟩ feed link
  | dead {n feed link} (up : link.up = false) :
      Moves patience now ⟨n, .probing⟩ feed link [] ⟨n, .announcing⟩ feed link
  | announce {n feed link} :
      Moves patience now ⟨n, .announcing⟩ feed link []
        ⟨n, .dialing⟩ { feed with status := .connecting } link
  | opened {n phase feed link next} (dials : phase = .dialing ∨ phase = .hanging link.cuts)
      (up : next.up = true) :
      Moves patience now ⟨n, phase⟩ feed link [.opened] ⟨n, .connected⟩ feed next
  | refused {n phase feed link next} (dials : phase = .dialing ∨ ∃ cuts, phase = .hanging cuts)
      (up : next.up = true → link.up = true) :
      Moves patience now ⟨n, phase⟩ feed link [.refused] ⟨n + 1, .refused⟩ feed next
  | hang {n feed link next} (up : next.up = false) :
      Moves patience now ⟨n, .dialing⟩ feed link [] ⟨n, .hanging link.cuts⟩ feed next
  | lie {n feed link} :
      Moves patience now ⟨n, .refused⟩ feed link []
        ⟨n, .resting (now + patience.retry)⟩ { feed with status := .disconnected } link
  | wake {n wake feed link} :
      Moves patience now ⟨n, .resting wake⟩ feed link [] ⟨n, .looking⟩ feed link
  | stream {n feed link} :
      Moves patience now ⟨n, .connected⟩ feed link []
        ⟨n, .gathering []⟩ { feed with status := .streaming } link
  | hand {n got feed link next bytes} (limit : patience.receive ≠ 0)
      (room : got.length < frameSize) (size : bytes.length ≤ frameSize - got.length)
      (up : link.up = true) (stays : next.up = true) :
      Moves patience now ⟨n, .gathering got⟩ feed link [.handed bytes]
        ⟨n, .gathering (got ++ bytes)⟩ feed next
  | complete {n got feed link} (limit : patience.receive ≠ 0) (full : frameSize ≤ got.length) :
      Moves patience now ⟨n, .gathering got⟩ feed link [] ⟨n, .taking got⟩ feed link
  | starve {n feed link next} (up : next.up = link.up) :
      Moves patience now ⟨n, .gathering []⟩ feed link [.quiet []] ⟨n + 1, .cutting⟩ feed next
  | fallShort {n got feed link next} (some : got ≠ [])
      (room : patience.receive ≠ 0 → got.length < frameSize) (up : next.up = link.up) :
      Moves patience now ⟨n, .gathering got⟩ feed link [.quiet got] ⟨n, .taking got⟩ feed next
  | breakOff {n got feed link next} (limit : patience.receive ≠ 0)
      (room : got.length < frameSize) (up : next.up = false) :
      Moves patience now ⟨n, .gathering got⟩ feed link [.broken] ⟨n, .failing⟩ feed next
  | publish {n block feed link} {frame : Frame} (is : decode block = .frame frame) :
      Moves patience now ⟨n, .taking block⟩ feed link [.published (.ofFrame frame)]
        ⟨0, .looking⟩ { feed with snapshot := .ofFrame frame } link
  | discard {n block declared feed link} (is : decode block = .discarded declared)
      (full : block.length = frameSize) :
      Moves patience now ⟨n, .taking block⟩ feed link [.discarded block] ⟨n, .looking⟩ feed link
  | cutShort {n block declared feed link} (is : decode block = .discarded declared)
      (short : block.length ≠ frameSize) :
      Moves patience now ⟨n, .taking block⟩ feed link [.discarded block] ⟨n, .cutting⟩ feed link
  | fail {n feed link} (running : feed.running = true) :
      Moves patience now ⟨n, .failing⟩ feed link [] ⟨n + 1, .cutting⟩ feed link
  | excuse {n feed link} (running : feed.running = false) :
      Moves patience now ⟨n, .failing⟩ feed link [] ⟨n, .finished⟩ feed link
  | cut {n feed link} :
      Moves patience now ⟨n, .cutting⟩ feed link [] ⟨n, .lowering⟩ feed link.close
  | lower {n feed link} :
      Moves patience now ⟨n, .lowering⟩ feed link []
        ⟨n, .looking⟩ { feed with status := .disconnected } link

end Reader

/-- A frame has the size of one. -/
theorem length_of_decode {block : List UInt8} {frame : Frame} (h : decode block = .frame frame) :
    block.length = frameSize := by
  unfold decode at h
  split at h
  · simp only at h
    split at h
    · rename_i hsize
      exact hsize.1
    · cases h
  · cases h

namespace Reader

variable {patience : Patience} {now n : Nat} {r r' : Reader} {feed feed' : Feed}
  {link link' : Link}

theorem moves_of_dialing (h : step patience now ⟨n, .dialing⟩ feed link = some (r', feed', link')) :
    Moves patience now ⟨n, .dialing⟩ feed link (signs patience ⟨n, .dialing⟩ feed link)
      r' feed' link' := by
  have hup := link.up_dial
  simp only [step, signs, Option.some.injEq, Prod.mk.injEq] at h ⊢
  obtain ⟨rfl, rfl, rfl⟩ := h
  cases hd : link.dial.1 with
  | connected => exact .opened (.inl rfl) (hup.2 hd)
  | failed failure =>
      refine .refused (.inl rfl) fun h => ?_
      rw [hup, hd] at h
      cases h
  | waiting =>
      refine .hang (Bool.eq_false_iff.2 fun h => ?_)
      rw [hup, hd] at h
      cases h

theorem moves_of_hanging {cuts : Nat}
    (h : step patience now ⟨n, .hanging cuts⟩ feed link = some (r', feed', link')) :
    Moves patience now ⟨n, .hanging cuts⟩ feed link (signs patience ⟨n, .hanging cuts⟩ feed link)
      r' feed' link' := by
  have hup := link.up_dial
  simp only [step, signs] at h ⊢
  split at h
  · rename_i hcuts
    rw [if_pos hcuts]
    obtain ⟨rfl, rfl, rfl⟩ := by simpa using h
    exact .refused (.inr ⟨cuts, rfl⟩) id
  · rename_i hcuts
    obtain rfl : link.cuts = cuts := Decidable.not_not.1 hcuts
    rw [if_neg hcuts]
    split at h
    · cases h
    · rename_i result next hne hd
      rw [hd] at hup ⊢
      obtain ⟨rfl, rfl, rfl⟩ := by simpa using h
      cases result with
      | connected => exact .opened (.inr rfl) (hup.2 rfl)
      | failed failure => exact .refused (.inr ⟨_, rfl⟩) fun h => nomatch hup.1 h
      | waiting => exact (hne rfl).elim

theorem moves_of_gathering {got : List UInt8}
    (h : step patience now ⟨n, .gathering got⟩ feed link = some (r', feed', link')) :
    Moves patience now ⟨n, .gathering got⟩ feed link (signs patience ⟨n, .gathering got⟩ feed link)
      r' feed' link' := by
  -- Silence is the same step whether it comes of the limit or of the link.
  have hhush {next : Link} (hroom : patience.receive ≠ 0 → got.length < frameSize)
      (hup : next.up = link.up) :
      Moves patience now ⟨n, .gathering got⟩ feed link [.quiet got]
        (hushed ⟨n, .gathering got⟩ got) feed next := by
    unfold hushed
    split
    · rename_i hgot
      subst hgot
      exact .starve hup
    · rename_i hgot
      exact .fallShort hgot hroom hup
  simp only [step, signs] at h ⊢
  split at h
  · rename_i hzero
    rw [if_pos hzero]
    obtain ⟨rfl, rfl, rfl⟩ := by simpa using h
    exact hhush (fun hne => absurd hzero hne) rfl
  · rename_i hlimit
    rw [if_neg hlimit]
    split at h
    · rename_i hfull
      rw [if_pos hfull]
      obtain ⟨rfl, rfl, rfl⟩ := by simpa using h
      exact .complete hlimit hfull
    · rename_i hroom
      rw [if_neg hroom]
      have hroom : got.length < frameSize := Nat.lt_of_not_le hroom
      split at h <;> rename_i hr
      · obtain ⟨rfl, rfl, rfl⟩ := by simpa using h
        obtain ⟨hup, hstays, hsize⟩ := Link.receive_data hr
        rw [hr]
        exact .hand hlimit hroom hsize hup hstays
      · obtain ⟨rfl, rfl, rfl⟩ := by simpa using h
        obtain ⟨hup, hstays⟩ := Link.receive_quiet hr
        rw [hr]
        exact hhush (fun _ => hroom) (hstays.trans hup.symm)
      · obtain ⟨rfl, rfl, rfl⟩ := by simpa using h
        rw [hr]
        exact .breakOff hlimit hroom (Link.receive_failed hr)
      · cases h

theorem moves_of_taking {block : List UInt8}
    (h : step patience now ⟨n, .taking block⟩ feed link = some (r', feed', link')) :
    Moves patience now ⟨n, .taking block⟩ feed link (signs patience ⟨n, .taking block⟩ feed link)
      r' feed' link' := by
  cases hd : decode block with
  | frame frame =>
      have hsize := length_of_decode hd
      simp only [step, signs, Snapshot.take, took, hd, hsize, if_pos] at h ⊢
      obtain ⟨rfl, rfl, rfl⟩ := by simpa using h
      exact .publish hd
  | discarded declared =>
      simp only [step, signs, Snapshot.take, took, go, hd] at h ⊢
      obtain ⟨rfl, rfl, rfl⟩ := by simpa using h
      split
      · rename_i hsize
        exact .discard hd hsize
      · rename_i hsize
        exact .cutShort hd hsize

/-- A reader that cannot take a step adds nothing. -/
theorem signs_of_stuck (h : r.step patience now feed link = none) :
    r.signs patience feed link = [] := by
  obtain ⟨n, phase⟩ := r
  cases phase with
  | hanging cuts =>
      simp only [step, signs] at h ⊢
      split at h
      · cases h
      · rename_i hcuts
        rw [if_neg hcuts]
        split at h
        · rename_i hd
          rw [hd]
          rfl
        · cases h
  | gathering got =>
      simp only [step, signs] at h ⊢
      split at h
      · cases h
      · rename_i hlimit
        rw [if_neg hlimit]
        split at h
        · cases h
        · rename_i hroom
          rw [if_neg hroom]
          split at h
          · cases h
          · cases h
          · cases h
          · rename_i hr
            rw [hr]
            rfl
  | resting | finished => rfl
  | _ => cases h

/-- Every step of a reader is one of `Moves`, with the signs it gives. -/
theorem moves_of_step (h : r.step patience now feed link = some (r', feed', link')) :
    Moves patience now r feed link (r.signs patience feed link) r' feed' link' := by
  obtain ⟨n, phase⟩ := r
  cases phase with
  | dialing => exact moves_of_dialing h
  | hanging cuts => exact moves_of_hanging h
  | gathering got => exact moves_of_gathering h
  | taking block => exact moves_of_taking h
  | looking =>
      simp only [step, go, Option.some.injEq, Prod.mk.injEq] at h
      obtain ⟨rfl, rfl, rfl⟩ := h
      cases hrun : feed.running with
      | false => exact .halt hrun
      | true =>
          by_cases hlimit : patience.trials ≤ n
          · rw [if_neg (by simp), if_pos hlimit]
            exact .giveUp hrun hlimit
          · rw [if_neg (by simp), if_neg hlimit]
            exact .goOn hrun (Nat.lt_of_not_le hlimit)
  | probing =>
      simp only [step, go, Option.some.injEq, Prod.mk.injEq] at h
      obtain ⟨rfl, rfl, rfl⟩ := h
      cases hup : link.up with
      | true => exact .live hup
      | false => exact .dead hup
  | resting wake =>
      simp only [step] at h
      split at h
      · cases h
      · obtain ⟨rfl, rfl, rfl⟩ := by simpa [go] using h
        exact .wake
  | failing =>
      simp only [step, go, fail, Option.some.injEq, Prod.mk.injEq] at h
      obtain ⟨rfl, rfl, rfl⟩ := h
      cases hrun : feed.running with
      | true => exact .fail hrun
      | false => exact .excuse hrun
  | finished => cases h
  | yielding | marking | posting | announcing | refused | connected | cutting | lowering =>
      simp only [step, go, Option.some.injEq, Prod.mk.injEq] at h
      obtain ⟨rfl, rfl, rfl⟩ := h
      constructor

end Reader

end ArmLink.Telemetry
