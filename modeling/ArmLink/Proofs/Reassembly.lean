import Mathlib.Data.List.Induction
import ArmLink.Proofs.Interleaving

/-!
# Frames out of a stream of bytes

The reader asks for as many bytes as its block still needs and takes what it gets,
so where blocks begin is carried along through every receive and never looked up.
The statement therefore counts from outside: it takes the bytes a history handed
over in one epoch, cuts them at the multiples of the size of a frame, and says that
what was published are the snapshots of those blocks that declare that size.

An epoch is what lies between two openings of the link, and a start of the reader
counts as one, since the link may be up already. That an epoch also ends with the
first loss of the link is part of what is proved: behind a loss nothing is handed
over before the next opening.

`Aligned` is the invariant. Its burden is in the places from which bytes can be
asked for without another opening. There, if the link is still up, nothing has been
lost, and what was handed over is whole blocks and the block at hand. A block that
was cut short leads to a reader that takes the link down, which is why the link
need not be up for the reader to go on, only for the bytes to be counted.
-/

namespace ArmLink

namespace Telemetry

/-! ## What a history handed over and what it published -/

/-- Whether the sign begins an epoch. -/
def Sign.isOpening : Sign → Bool
  | .began | .opened => true
  | _ => false

/-- Whether the sign is that of a loss of the link, or of what is one to the reader. -/
def Sign.isLoss : Sign → Bool
  | .lost | .quiet _ | .broken => true
  | _ => false

def Sign.isHanded : Sign → Bool
  | .handed _ => true
  | _ => false

def Sign.bytes : Sign → List UInt8
  | .handed bytes => bytes
  | _ => []

def Sign.snapshot? : Sign → Option Snapshot
  | .published snapshot => some snapshot
  | _ => none

def handed (signs : List Sign) : List UInt8 :=
  signs.flatMap Sign.bytes

def published (signs : List Sign) : List Snapshot :=
  signs.filterMap Sign.snapshot?

/-- The blocks of the size of a frame that lie whole in some bytes, from the first byte on. -/
def blocks (bytes : List UInt8) : List (List UInt8) :=
  (List.range (bytes.length / frameSize)).map fun i =>
    (bytes.drop (frameSize * i)).take frameSize

/-- The snapshot of a block of the size of a frame, if the block declares that size. -/
def Snapshot.ofBlock? (block : List UInt8) : Option Snapshot :=
  if wordValue (block.take 2) = frameSize then some (.ofFrame (.ofBytes block)) else none

def projected (bytes : List UInt8) : List Snapshot :=
  (blocks bytes).filterMap Snapshot.ofBlock?

theorem handed_append (xs ys : List Sign) : handed (xs ++ ys) = handed xs ++ handed ys :=
  List.flatMap_append

@[simp] theorem handed_concat (signs : List Sign) (s : Sign) :
    handed (signs ++ [s]) = handed signs ++ s.bytes := by
  simp [handed]

@[simp] theorem published_concat (signs : List Sign) (s : Sign) :
    published (signs ++ [s]) = published signs ++ s.snapshot?.toList := by
  simp only [published, List.filterMap_append]
  cases h : s.snapshot? <;> simp [h]

theorem blocks_of_short {bytes : List UInt8} (h : bytes.length < frameSize) :
    blocks bytes = [] := by
  rw [blocks, Nat.div_eq_of_lt h]
  rfl

theorem blocks_of_full {bytes : List UInt8} (h : bytes.length = frameSize) :
    blocks bytes = [bytes] := by
  rw [blocks, h, Nat.div_self (by decide)]
  simp [← h]

/-- Behind whole blocks the cuts fall where they would fall without them. -/
theorem blocks_append {whole rest : List UInt8} (h : frameSize ∣ whole.length) :
    blocks (whole ++ rest) = blocks whole ++ blocks rest := by
  obtain ⟨count, hcount⟩ := h
  have hdiv : whole.length / frameSize = count := by
    rw [hcount, Nat.mul_div_cancel_left _ (by decide)]
  have hsum : (whole ++ rest).length / frameSize = count + rest.length / frameSize := by
    rw [List.length_append, hcount, Nat.mul_add_div (by decide)]
  unfold blocks
  rw [hsum, hdiv, List.range_add, List.map_append, List.map_map]
  congr 1
  · refine List.map_congr_left fun i hi => ?_
    have hlt : i < count := List.mem_range.1 hi
    have hle : frameSize * (i + 1) ≤ whole.length := hcount ▸ Nat.mul_le_mul_left _ hlt
    rw [Nat.mul_succ] at hle
    rw [List.drop_append_of_le_length (by omega),
      List.take_append_of_le_length (by rw [List.length_drop]; omega)]
  · refine List.map_congr_left fun i _ => ?_
    show ((whole ++ rest).drop (frameSize * (count + i))).take frameSize = _
    rw [Nat.mul_add, ← hcount, List.drop_append, List.drop_eq_nil_of_le (Nat.le_add_right _ _),
      Nat.add_sub_cancel_left, List.nil_append]

theorem projected_append {whole rest : List UInt8} (h : frameSize ∣ whole.length) :
    projected (whole ++ rest) = projected whole ++ projected rest := by
  rw [projected, blocks_append h, List.filterMap_append]
  rfl

theorem projected_of_short {bytes : List UInt8} (h : bytes.length < frameSize) :
    projected bytes = [] := by
  rw [projected, blocks_of_short h]
  rfl

/-- What the reader makes of a whole block is what the block projects to. -/
theorem projected_of_frame {block : List UInt8} {frame : Frame}
    (h : decode block = .frame frame) : projected block = [.ofFrame frame] := by
  have hfull := length_of_decode h
  rw [projected, blocks_of_full hfull, List.filterMap_cons, List.filterMap_nil]
  unfold decode at h
  split at h
  · rename_i a b rest
    simp only at h
    split at h
    · rename_i hsize
      obtain rfl := Block.frame.inj h
      simp [Snapshot.ofBlock?, hsize.2]
    · cases h
  · cases h

theorem projected_of_discarded {block : List UInt8} {declared : Option Nat}
    (h : decode block = .discarded declared) (hfull : block.length = frameSize) :
    projected block = [] := by
  rw [projected, blocks_of_full hfull, List.filterMap_cons, List.filterMap_nil]
  unfold decode at h
  split at h
  · rename_i a b rest
    simp only at h
    split at h
    · cases h
    · rename_i hsize
      have hdeclared : wordValue [a, b] ≠ frameSize := fun hd => hsize ⟨hfull, hd⟩
      simp [Snapshot.ofBlock?, hdeclared]
  · rename_i hshort
    -- A block of that size has two bytes.
    match block, hfull, hshort with
    | [], hfull, _ => cases hfull
    | [_], hfull, _ => cases hfull
    | a :: b :: rest, _, hshort => exact absurd rfl (hshort a b rest)

/-! ## Epochs -/

/-- The stretches of a history between the openings of the link. -/
def epochs (trail : List Sign) : List (List Sign) :=
  trail.splitOnP Sign.isOpening

/-- What the last stretch of a split becomes with one more element. -/
theorem splitOnP_concat {α : Type} {p : α → Bool} {xs last : List α} {done : List (List α)} (x : α)
    (h : xs.splitOnP p = done ++ [last]) :
    (xs ++ [x]).splitOnP p =
      if p x then done ++ [last] ++ [[]] else done ++ [last ++ [x]] := by
  induction xs generalizing done last with
  | nil =>
      cases done with
      | nil =>
          obtain rfl : last = [] := by simpa using h.symm
          cases hx : p x <;> simp [List.splitOnP_cons_eq_if_modifyHead, hx]
      | cons first done => simp at h
  | cons y ys ih =>
      obtain ⟨done', last', hys⟩ : ∃ done' last', ys.splitOnP p = done' ++ [last'] :=
        ⟨_, _, (List.dropLast_concat_getLast (List.splitOnP_ne_nil p ys)).symm⟩
      rw [List.splitOnP_cons_eq_if_modifyHead, hys] at h
      rw [List.cons_append, List.splitOnP_cons_eq_if_modifyHead, ih hys]
      cases hy : p y with
      | true =>
          rw [if_pos hy, ← List.cons_append] at h
          obtain ⟨rfl, hlast⟩ := List.append_inj' h rfl
          obtain rfl := List.singleton_inj.1 hlast
          cases p x <;> simp
      | false =>
          rw [if_neg (by simp [hy])] at h
          cases done' with
          | nil =>
              have h : [] ++ [y :: last'] = done ++ [last] := h
              obtain ⟨rfl, hlast⟩ := List.append_inj' h rfl
              obtain rfl := List.singleton_inj.1 hlast
              cases p x <;> simp
          | cons first rest =>
              have h : ((y :: first) :: rest) ++ [last'] = done ++ [last] := h
              obtain ⟨rfl, hlast⟩ := List.append_inj' h rfl
              obtain rfl := List.singleton_inj.1 hlast
              cases p x <;> simp

theorem splitOnP_append {α : Type} {p : α → Bool} {xs last : List α} {done : List (List α)}
    {ys : List α} (hys : ∀ y ∈ ys, p y = false) (h : xs.splitOnP p = done ++ [last]) :
    (xs ++ ys).splitOnP p = done ++ [last ++ ys] := by
  induction ys generalizing xs last with
  | nil => simpa using h
  | cons y rest ih =>
      have hy : p y = false := hys y List.mem_cons_self
      have hone : (xs ++ [y]).splitOnP p = done ++ [last ++ [y]] := by
        rw [splitOnP_concat y h, hy]
        rfl
      rw [List.append_cons xs, List.append_cons last]
      exact ih (fun z hz => hys z (List.mem_cons_of_mem y hz)) hone

/-- What was published in a stretch is what its bytes project to. -/
def Tiled (epoch : List Sign) : Prop :=
  published epoch = projected (handed epoch)

/-- Nothing in a stretch is a loss. -/
def Unbroken (epoch : List Sign) : Prop :=
  ∀ s ∈ epoch, s.isLoss = false

/-- No bytes come behind a loss. -/
def Settled (epoch : List Sign) : Prop :=
  epoch.Pairwise fun s later => s.isLoss = true → later.isHanded = false

/-- A history whose earlier epochs are done with and whose last one is `last`. -/
structure Epochs (trail last : List Sign) : Prop where
  split : ∃ done, epochs trail = done ++ [last] ∧ ∀ e ∈ done, Tiled e ∧ Settled e
  settled : Settled last

theorem Epochs.opening {trail last : List Sign} (h : Epochs trail last) (tiled : Tiled last)
    {s : Sign} (hs : s.isOpening = true) : Epochs (trail ++ [s]) [] := by
  obtain ⟨done, hsplit, hdone⟩ := h.split
  refine ⟨⟨done ++ [last], ?_, fun e he => ?_⟩, List.Pairwise.nil⟩
  · exact (splitOnP_concat s hsplit).trans (if_pos hs)
  · rcases List.mem_append.1 he with he | he
    · exact hdone e he
    · rw [List.mem_singleton.1 he]
      exact ⟨tiled, h.settled⟩

theorem Epochs.concat {trail last : List Sign} (h : Epochs trail last) {s : Sign}
    (hs : s.isOpening = false) (hhanded : s.isHanded = true → Unbroken last) :
    Epochs (trail ++ [s]) (last ++ [s]) := by
  obtain ⟨done, hsplit, hdone⟩ := h.split
  refine ⟨⟨done, ?_, hdone⟩, ?_⟩
  · exact (splitOnP_concat s hsplit).trans (if_neg (by simp [hs]))
  · refine List.pairwise_append.2 ⟨h.settled, List.pairwise_singleton _ _, fun t ht u hu hloss => ?_⟩
    rw [List.mem_singleton.1 hu]
    refine Bool.eq_false_iff.2 fun hbytes => ?_
    exact absurd (hloss.symm.trans (hhanded hbytes t ht)) (by decide)

/-- Bytes are at hand for the next block, and the blocks in front of it are published. -/
def Gathers (epoch : List Sign) (got : List UInt8) : Prop :=
  ∃ whole, handed epoch = whole ++ got ∧ frameSize ∣ whole.length ∧ got.length ≤ frameSize ∧
    published epoch = projected whole

theorem Gathers.short {epoch : List Sign} {got : List UInt8} (h : Gathers epoch got)
    (hgot : got.length < frameSize) : Tiled epoch := by
  obtain ⟨whole, hhanded, hwhole, -, hpublished⟩ := h
  rw [Tiled, hhanded, projected_append hwhole, projected_of_short hgot, List.append_nil,
    hpublished]

theorem Gathers.projected {epoch : List Sign} {got : List UInt8} (h : Gathers epoch got) :
    published epoch ++ Telemetry.projected got = Telemetry.projected (handed epoch) := by
  obtain ⟨whole, hhanded, hwhole, -, hpublished⟩ := h
  rw [hhanded, projected_append hwhole, hpublished]

theorem Gathers.le {epoch : List Sign} {got : List UInt8} (h : Gathers epoch got) :
    got.length ≤ frameSize := by
  obtain ⟨_, -, -, hle, -⟩ := h
  exact hle

/-- What a place of the reader has to do with its epoch. -/
def Phase.Aligned (link : Link) (epoch : List Sign) : Phase → Prop
  | .gathering got => Gathers epoch got ∧ (link.up = true → Unbroken epoch)
  | .taking block =>
    Gathers epoch block ∧ (link.up = true → block.length = frameSize → Unbroken epoch)
  | .connected =>
    Tiled epoch ∧ frameSize ∣ (handed epoch).length ∧ (link.up = true → Unbroken epoch)
  | .looking | .probing =>
    Tiled epoch ∧ (link.up = true → frameSize ∣ (handed epoch).length ∧ Unbroken epoch)
  | .announcing | .dialing | .hanging _ | .refused | .resting _ | .failing | .lowering | .marking
  | .posting => Tiled epoch ∧ link.up = false
  | .yielding | .cutting | .finished => Tiled epoch

/-! ## What a sign leaves as it is

Only bytes and snapshots count for what an epoch adds up to. -/

theorem handed_silent (epoch : List Sign) {s : Sign} (hbytes : s.bytes = []) :
    handed (epoch ++ [s]) = handed epoch := by
  rw [handed_concat, hbytes, List.append_nil]

theorem published_silent (epoch : List Sign) {s : Sign} (hsnapshot : s.snapshot? = none) :
    published (epoch ++ [s]) = published epoch := by
  rw [published_concat, hsnapshot, Option.toList_none, List.append_nil]

theorem Tiled.silent {epoch : List Sign} (h : Tiled epoch) {s : Sign} (hbytes : s.bytes = [])
    (hsnapshot : s.snapshot? = none) : Tiled (epoch ++ [s]) := by
  rw [Tiled, handed_silent epoch hbytes, published_silent epoch hsnapshot]
  exact h

theorem Gathers.silent {epoch : List Sign} {got : List UInt8} (h : Gathers epoch got) {s : Sign}
    (hbytes : s.bytes = []) (hsnapshot : s.snapshot? = none) : Gathers (epoch ++ [s]) got := by
  rw [Gathers, handed_silent epoch hbytes, published_silent epoch hsnapshot]
  exact h

theorem Unbroken.concat {epoch : List Sign} (h : Unbroken epoch) {s : Sign}
    (hs : s.isLoss = false) : Unbroken (epoch ++ [s]) := by
  intro t ht
  rcases List.mem_append.1 ht with ht | ht
  · exact h t ht
  · rw [List.mem_singleton.1 ht]
    exact hs

theorem Gathers.dvd {epoch : List Sign} {block : List UInt8} (h : Gathers epoch block)
    (hfull : block.length = frameSize) : frameSize ∣ (handed epoch).length := by
  obtain ⟨whole, hhanded, hwhole, -, -⟩ := h
  rw [hhanded, List.length_append, hfull]
  exact Nat.dvd_add hwhole (Nat.dvd_refl _)

/-- To begin a block behind whole ones is to have nothing of it. -/
theorem Tiled.gathers {epoch : List Sign} (h : Tiled epoch)
    (hdvd : frameSize ∣ (handed epoch).length) : Gathers epoch [] :=
  ⟨handed epoch, (List.append_nil _).symm, hdvd, Nat.zero_le _, h⟩

theorem Gathers.hand {epoch : List Sign} {got bytes : List UInt8} (h : Gathers epoch got)
    (hroom : got.length < frameSize) (hsize : bytes.length ≤ frameSize - got.length) :
    Gathers (epoch ++ [.handed bytes]) (got ++ bytes) := by
  obtain ⟨whole, hhanded, hwhole, -, hpublished⟩ := h
  refine ⟨whole, ?_, hwhole, ?_, ?_⟩
  · rw [handed_concat, hhanded, List.append_assoc]
    rfl
  · rw [List.length_append]
    omega
  · rw [published_silent epoch rfl, hpublished]

/-- A block that is a frame is the next one to be published. -/
theorem Gathers.publish {epoch : List Sign} {block : List UInt8} {frame : Frame}
    (h : Gathers epoch block) (hframe : decode block = .frame frame) :
    Tiled (epoch ++ [.published (.ofFrame frame)]) := by
  have hall := h.projected
  rw [projected_of_frame hframe] at hall
  rw [Tiled, handed_silent epoch rfl, ← hall, published_concat]
  rfl

theorem Gathers.discard {epoch : List Sign} {block : List UInt8} {declared : Option Nat}
    (h : Gathers epoch block) (hblock : decode block = .discarded declared)
    (hfull : block.length = frameSize) : Tiled (epoch ++ [.discarded block]) := by
  have hall := h.projected
  rw [projected_of_discarded hblock hfull, List.append_nil] at hall
  rw [Tiled, handed_silent epoch rfl, published_silent epoch rfl, hall]

/-! ## Turns -/

/-- The link may go down where the reader stands; that is a loss, and nothing else changes. -/
theorem Phase.Aligned.lose {phase : Phase} {link link' : Link} {epoch : List Sign}
    (h : phase.Aligned link epoch) (down : link'.up = false) :
    phase.Aligned link' (epoch ++ [.lost]) := by
  have hup {P : Prop} (hlink : link'.up = true) : P := by
    rw [down] at hlink
    cases hlink
  cases phase with
  | gathering got => exact ⟨h.1.silent rfl rfl, hup⟩
  | taking block => exact ⟨h.1.silent rfl rfl, hup⟩
  | connected =>
      refine ⟨h.1.silent rfl rfl, ?_, hup⟩
      rw [handed_silent epoch rfl]
      exact h.2.1
  | looking | probing => exact ⟨h.1.silent rfl rfl, hup⟩
  | yielding | cutting | finished => exact Tiled.silent h rfl rfl
  | _ => exact ⟨h.1.silent rfl rfl, down⟩

/-- What others do to the link is no matter as long as they do not bring it up. -/
theorem Phase.Aligned.link {phase : Phase} {link link' : Link} {epoch : List Sign}
    (h : phase.Aligned link epoch) (hup : link'.up = true → link.up = true) :
    phase.Aligned link' epoch := by
  have hdown (hlink : link.up = false) : link'.up = false :=
    Bool.eq_false_iff.2 fun hc => Bool.eq_false_iff.1 hlink (hup hc)
  cases phase with
  | gathering got => exact ⟨h.1, fun hc => h.2 (hup hc)⟩
  | taking block => exact ⟨h.1, fun hc => h.2 (hup hc)⟩
  | connected => exact ⟨h.1, h.2.1, fun hc => h.2.2 (hup hc)⟩
  | looking | probing => exact ⟨h.1, fun hc => h.2 (hup hc)⟩
  | yielding | cutting | finished => exact h
  | _ => exact ⟨h.1, hdown h.2⟩

/-- A move of the reader keeps the account of its epoch, or begins the next one. -/
theorem Phase.Aligned.move {patience : Patience} {now : Nat} {r r' : Reader}
    {feed feed' : Feed} {link link' : Link} {signs trail epoch : List Sign}
    (h : r.phase.Aligned link epoch) (hepochs : Epochs trail epoch)
    (timed : patience.receive ≠ 0)
    (m : Reader.Moves patience now r feed link signs r' feed' link') :
    ∃ last, Epochs (trail ++ signs) last ∧ r'.phase.Aligned link' last := by
  -- A move that gives no sign stays in the epoch.
  have hstay {phase : Phase} (hphase : phase.Aligned link' epoch) :
      ∃ last, Epochs (trail ++ []) last ∧ phase.Aligned link' last :=
    ⟨epoch, (List.append_nil trail).symm ▸ hepochs, hphase⟩
  have hnext {s : Sign} {phase : Phase} (hs : s.isOpening = false) (hhanded : s.isHanded = false)
      (hphase : phase.Aligned link' (epoch ++ [s])) :
      ∃ last, Epochs (trail ++ [s]) last ∧ phase.Aligned link' last := by
    refine ⟨epoch ++ [s], hepochs.concat hs fun hc => ?_, hphase⟩
    exact absurd (hhanded.symm.trans hc) (by decide)
  cases m with
  | halt | giveUp | post | fail | excuse => exact hstay h.1
  | goOn | announce | lie | mark => exact hstay h
  | cut | yield => exact hstay ⟨h, rfl⟩
  | wake | lower =>
      refine hstay ⟨h.1, fun hup => ?_⟩
      rw [h.2] at hup
      cases hup
  | live up => exact hstay ⟨h.1.gathers (h.2 up).1, fun _ => (h.2 up).2⟩
  | dead up => exact hstay ⟨h.1, up⟩
  | hang up => exact hstay ⟨h.1, up⟩
  | stream => exact hstay ⟨h.1.gathers h.2.1, h.2.2⟩
  | opened dials up =>
      have htiled : Tiled epoch := by
        rcases dials with rfl | rfl <;> exact h.1
      exact ⟨[], hepochs.opening htiled rfl, rfl, Nat.dvd_zero _, fun _ s hs => nomatch hs⟩
  | refused dials up =>
      have hdown : Tiled epoch ∧ link.up = false := by
        rcases dials with rfl | ⟨_, rfl⟩ <;> exact h
      refine hnext rfl rfl ⟨hdown.1.silent rfl rfl, Bool.eq_false_iff.2 fun hc => ?_⟩
      exact Bool.eq_false_iff.1 hdown.2 (up hc)
  | hand limit room size up stays =>
      refine ⟨_, hepochs.concat rfl fun _ => h.2 up, h.1.hand room size, fun _ => ?_⟩
      exact (h.2 up).concat rfl
  | complete => exact hstay ⟨h.1, fun hup _ => h.2 hup⟩
  | starve => exact hnext rfl rfl ((h.1.short (by decide)).silent rfl rfl)
  | fallShort some room =>
      refine hnext rfl rfl ⟨h.1.silent rfl rfl, fun _ hfull => ?_⟩
      exact absurd hfull (Nat.ne_of_lt (room timed))
  | breakOff limit room up => exact hnext rfl rfl ⟨(h.1.short room).silent rfl rfl, up⟩
  | publish is =>
      have hfull := length_of_decode is
      refine hnext rfl rfl ⟨h.1.publish is, fun hup => ⟨?_, (h.2 hup hfull).concat rfl⟩⟩
      rw [handed_silent epoch rfl]
      exact h.1.dvd hfull
  | discard is full =>
      refine hnext rfl rfl ⟨h.1.discard is full, fun hup => ⟨?_, (h.2 hup full).concat rfl⟩⟩
      rw [handed_silent epoch rfl]
      exact h.1.dvd full
  | cutShort is short =>
      have hlt := Nat.lt_of_le_of_ne h.1.le short
      exact hnext rfl rfl ((h.1.short hlt).silent rfl rfl)

/-- The snapshot is the last one that was published. -/
theorem Reader.Moves.snapshot_eq {patience : Patience} {now : Nat} {r r' : Reader}
    {feed feed' : Feed} {link link' : Link} {signs : List Sign}
    (m : Reader.Moves patience now r feed link signs r' feed' link') :
    feed'.snapshot = (published signs).getLastD feed.snapshot := by
  cases m <;> rfl

end Telemetry

/-! ## The bytes on the link -/

def Arrival.data : Arrival → List UInt8
  | .bytes data => data
  | _ => []

def Link.stream (link : Link) : List UInt8 :=
  link.inbox.flatMap Arrival.data

open Telemetry

/-- A receive hands over what comes first on the link and leaves the rest there. -/
theorem Link.stream_receive (size : Nat) (got : List UInt8) (link : Link) :
    link.stream =
      handed (Received.signs got (link.receive size).1) ++ (link.receive size).2.stream := by
  have h := link.receives size
  generalize (link.receive size).1 = result, (link.receive size).2 = next at h
  cases h with
  | offline | waiting | silent => rfl
  | whole _ inbox => simp [stream, inbox, Arrival.data, Received.signs, handed, Sign.bytes]
  | part _ inbox =>
      simp [stream, inbox, Arrival.data, Received.signs, handed, Sign.bytes, ← List.append_assoc,
        List.take_append_drop]
  | quiet _ inbox | broken _ inbox | faulty _ inbox =>
      simp [stream, inbox, Arrival.data, Received.signs, handed, Sign.bytes]

theorem Link.stream_dial (link : Link) : link.dial.2.stream = link.stream := by
  rw [dial]
  split
  · rfl
  · rfl
  · split <;> rfl

theorem handed_dialed (dialed : Dialed) : handed (Dialed.signs dialed) = [] := by
  cases dialed <;> rfl

/-- A step of the reader takes off the link what it hands over, and nothing else. -/
theorem stream_step {patience : Patience} {now : Nat} {r r' : Reader} {feed feed' : Feed}
    {link link' : Link} (h : r.step patience now feed link = some (r', feed', link')) :
    link.stream = handed (r.signs patience feed link) ++ link'.stream := by
  obtain ⟨n, phase⟩ := r
  cases phase with
  | dialing =>
      simp only [Reader.step, Reader.signs, Option.some.injEq, Prod.mk.injEq] at h ⊢
      obtain ⟨-, -, rfl⟩ := h
      rw [handed_dialed, link.stream_dial, List.nil_append]
  | hanging cuts =>
      simp only [Reader.step, Reader.signs] at h ⊢
      split at h
      · rename_i hcuts
        rw [if_pos hcuts]
        obtain ⟨-, -, rfl⟩ := by simpa using h
        rfl
      · rename_i hcuts
        rw [if_neg hcuts, handed_dialed]
        split at h
        · cases h
        · rename_i hd
          obtain ⟨-, -, rfl⟩ := by simpa using h
          rw [← link.stream_dial, hd]
          rfl
  | gathering got =>
      have hreceive := link.stream_receive (frameSize - got.length) got
      simp only [Reader.step, Reader.signs] at h ⊢
      split at h
      · rename_i hzero
        rw [if_pos hzero]
        obtain ⟨-, -, rfl⟩ := by simpa using h
        rfl
      · rename_i hlimit
        rw [if_neg hlimit]
        split at h
        · rename_i hfull
          rw [if_pos hfull]
          obtain ⟨-, -, rfl⟩ := by simpa using h
          rfl
        · rename_i hroom
          rw [if_neg hroom]
          split at h <;> rename_i hr <;> rw [hr] at hreceive ⊢
          · obtain ⟨-, -, rfl⟩ := by simpa using h
            exact hreceive
          · obtain ⟨-, -, rfl⟩ := by simpa using h
            exact hreceive
          · obtain ⟨-, -, rfl⟩ := by simpa using h
            exact hreceive
          · cases h
  | taking block =>
      simp only [Reader.step, Reader.signs, Option.some.injEq, Prod.mk.injEq] at h ⊢
      obtain ⟨-, -, rfl⟩ := h
      split <;> rfl
  | resting wake =>
      simp only [Reader.step] at h
      split at h
      · cases h
      · obtain ⟨-, -, rfl⟩ := by simpa using h
        rfl
  | finished => cases h
  | _ =>
      simp only [Reader.step, Option.some.injEq, Prod.mk.injEq] at h
      obtain ⟨-, -, rfl⟩ := h
      rfl

namespace Arm

/-- What the reader of an arm, or its absence, has to do with an epoch. -/
def Placed (a : Arm) (epoch : List Sign) : Prop :=
  match a.reader with
  | some r => r.phase.Aligned a.bench.realtime epoch
  | none => Tiled epoch

/-- Every epoch of a history is accounted for. -/
def Accounted (a : Arm) (trail : List Sign) : Prop :=
  ∃ last, Epochs trail last ∧ a.Placed last

theorem Accounted.link {a b : Arm} {trail : List Sign} (h : a.Accounted trail)
    (hreader : b.reader = a.reader)
    (hup : b.bench.realtime.up = true → a.bench.realtime.up = true) : b.Accounted trail := by
  obtain ⟨last, hepochs, hplaced⟩ := h
  refine ⟨last, hepochs, ?_⟩
  unfold Placed at hplaced ⊢
  rw [hreader]
  cases hr : a.reader with
  | none => rwa [hr] at hplaced
  | some r =>
      rw [hr] at hplaced
      exact hplaced.link hup

theorem Accounted.spares {a b : Arm} {trail : List Sign} (h : a.Accounted trail)
    (hab : a.Spares b) : b.Accounted trail :=
  h.link hab.reader hab.realtime.up

theorem Accounted.lose {a : Arm} {trail : List Sign} (h : a.Accounted trail)
    (down : a.bench.realtime.up = false) : a.Accounted (trail ++ [.lost]) := by
  obtain ⟨last, hepochs, hplaced⟩ := h
  refine ⟨last ++ [.lost], hepochs.concat rfl (fun hc => absurd hc (by decide)), ?_⟩
  unfold Placed at hplaced ⊢
  cases hr : a.reader with
  | none =>
      rw [hr] at hplaced
      exact Tiled.silent hplaced rfl rfl
  | some r =>
      rw [hr] at hplaced
      exact hplaced.lose down

/-- A reader that has ended has nothing at hand. -/
theorem Placed.ended {a : Arm} {epoch : List Sign} (h : a.Placed epoch)
    (hended : a.readerEnded = true) : Tiled epoch := by
  rw [Placed] at h
  rw [readerEnded] at hended
  cases hr : a.reader with
  | none => rwa [hr] at h
  | some r =>
      rw [hr] at h hended
      have hphase : r.phase = .finished := of_decide_eq_true hended
      have haligned : r.phase.Aligned a.bench.realtime epoch := h
      rwa [hphase] at haligned

theorem Accounted.deeds {a : Arm} {trail : List Sign} (h : a.Accounted trail)
    (timed : a.config.patience.receive ≠ 0) (t : Turn) :
    (a.turn t).Accounted (trail ++ a.deeds t) := by
  have hsame {b : Arm} (hb : b.Accounted trail) : b.Accounted (trail ++ []) :=
    (List.append_nil trail).symm ▸ hb
  cases t with
  | read =>
      rcases a.turn_read with ⟨-, hturn, hdeeds⟩ | ⟨r, r', feed, link, hr, hm, hturn⟩
      · rw [hturn, hdeeds]
        exact hsame h
      · obtain ⟨last, hepochs, hplaced⟩ := h
        rw [Placed, hr] at hplaced
        rw [hturn]
        exact hplaced.move hepochs timed hm
  | keep => exact hsame (h.spares a.spares_keep)
  | aside event => exact hsame (h.spares (a.spares_aside event))
  | sway link => exact hsame (h.link rfl fun hup => (Bool.and_eq_true_iff.1 hup).1)
  | cut => exact hsame (h.link rfl (Link.leftAlone_close _).up)
  | pass | take | lower => exact hsame h
  | start =>
      cases hr : a.reader with
      | some r =>
          rw [turn, startReader_of_some hr, Arm.deeds, hr]
          exact hsame h
      | none =>
          obtain ⟨last, hepochs, hplaced⟩ := h
          rw [Placed, hr] at hplaced
          have hstart : (a.turn .start).reader = some .start := by simp [turn, startReader, hr]
          rw [Arm.deeds, hr]
          refine ⟨[], hepochs.opening hplaced rfl, ?_⟩
          rw [Placed, hstart]
          exact ⟨rfl, fun _ => ⟨Nat.dvd_zero _, fun _ hs => absurd hs List.not_mem_nil⟩⟩
  | join =>
      rw [turn]
      split
      · rename_i hended
        obtain ⟨last, hepochs, hplaced⟩ := h
        refine hsame ⟨last, hepochs, ?_⟩
        rw [lower]
        split <;> exact hplaced.ended hended
      · exact hsame h

theorem Accounted.turn {a : Arm} {trail : List Sign} (h : a.Accounted trail)
    (timed : a.config.patience.receive ≠ 0) (t : Turn) :
    (a.turn t).Accounted (trail ++ a.signs t) := by
  have hdeeds := h.deeds timed t
  rw [signs]
  split
  · rename_i hlost
    rw [← List.append_assoc]
    exact hdeeds.lose (by simpa using (Bool.and_eq_true_iff.1 hlost).2)
  · rw [List.append_nil]
    exact hdeeds

theorem Accounted.course {a : Arm} (h : a.Accounted []) (timed : a.config.patience.receive ≠ 0)
    (turns : List Turn) : (a.course turns).Accounted (a.trail turns) := by
  induction turns using List.reverseRecOn with
  | nil => exact h
  | append_singleton turns t ih =>
      rw [course_concat, trail_concat]
      exact ih.turn (by rw [config_course]; exact timed) t

/-- Every turn leaves the snapshot as the last one that was published. -/
theorem snapshot_turn (a : Arm) (t : Turn) :
    (a.turn t).feed.snapshot = (published (a.signs t)).getLastD a.feed.snapshot := by
  have hsigns : published (a.signs t) = published (a.deeds t) := by
    rw [signs]
    split
    · exact published_silent _ rfl
    · rw [List.append_nil]
  rw [hsigns]
  cases t with
  | read =>
      rcases a.turn_read with ⟨-, hturn, hdeeds⟩ | ⟨r, r', feed, link, hr, hm, hturn⟩
      · rw [hturn, hdeeds]
        rfl
      · rw [hturn]
        exact hm.snapshot_eq
  | keep => rw [a.spares_keep.feed]; rfl
  | aside event => rw [(a.spares_aside event).feed]; rfl
  | start =>
      cases hr : a.reader <;> simp [turn, startReader, deeds, hr, published, Sign.snapshot?]
  | join =>
      rw [turn]
      split
      · rw [lower]
        split <;> rfl
      · rfl
  | pass | sway | cut | take | lower => rfl

theorem snapshot_course (a : Arm) (turns : List Turn) :
    (a.course turns).feed.snapshot = (published (a.trail turns)).getLastD a.feed.snapshot := by
  induction turns using List.reverseRecOn with
  | nil => rfl
  | append_singleton turns t ih =>
      rw [course_concat, trail_concat, snapshot_turn, ih]
      unfold published
      rw [List.filterMap_append]
      simp only [List.getLastD_eq_getLast?, List.getLast?_append]
      cases (List.filterMap Sign.snapshot? ((a.course turns).signs t)).getLast? <;> rfl

/-- Nobody but the other side takes bytes off the link without handing them over. -/
theorem stream_turn (a : Arm) {t : Turn} (ht : ∀ link, t ≠ .sway link) :
    a.bench.realtime.stream <+: handed (a.signs t) ++ (a.turn t).bench.realtime.stream := by
  have hsigns : handed (a.signs t) = handed (a.deeds t) := by
    rw [signs]
    split
    · exact handed_silent _ rfl
    · rw [List.append_nil]
  have hleft {before after : Link} (h : before.LeftAlone after) :
      before.stream <+: [] ++ after.stream := by
    obtain ⟨more, hmore⟩ := h.inbox
    rw [List.nil_append, Link.stream, Link.stream, ← hmore, List.flatMap_append]
    exact List.prefix_append _ _
  rw [hsigns]
  cases t with
  | read =>
      cases hr : a.reader with
      | none =>
          have hstuck : a.stepReader = none := by simp [stepReader, hr]
          rw [turn, hstuck, Arm.deeds, hr]
          exact List.prefix_refl _
      | some r =>
          cases hs : r.step a.config.patience a.clock a.feed a.bench.realtime with
          | none =>
              have hstuck : a.stepReader = none := by simp [stepReader, hr, hs]
              rw [turn, hstuck, Arm.deeds, hr]
              show _ <+: handed (r.signs a.config.patience a.feed a.bench.realtime) ++ _
              rw [Reader.signs_of_stuck hs]
              exact List.prefix_refl _
          | some next =>
              obtain ⟨r', feed, link⟩ := next
              rw [stream_step hs, turn, Arm.deeds, hr]
              simp only [stepReader, hr, hs, Option.bind_eq_bind, Option.bind_some]
              exact List.prefix_refl _
  | keep => exact hleft a.spares_keep.realtime
  | aside event => exact hleft (a.spares_aside event).realtime
  | sway link => exact absurd rfl (ht link)
  | cut => exact hleft (Link.leftAlone_close _)
  | pass | take | lower => exact hleft (.refl _)
  | start =>
      have hstart : (a.turn .start).bench = a.bench := by
        rw [turn, startReader]
        split <;> rfl
      have hdeeds : handed (a.deeds .start) = [] := by
        rw [Arm.deeds]
        split <;> rfl
      rw [hstart, hdeeds]
      exact List.prefix_refl _
  | join =>
      rw [turn]
      split
      · rw [lower]
        split <;> exact hleft (Link.leftAlone_close _)
      · exact hleft (.refl _)

theorem stream_course (a : Arm) {turns : List Turn}
    (hturns : ∀ t ∈ turns, ∀ link, t ≠ .sway link) :
    a.bench.realtime.stream <+:
      handed (a.trail turns) ++ (a.course turns).bench.realtime.stream := by
  induction turns generalizing a with
  | nil => exact List.prefix_refl _
  | cons t rest ih =>
      have hrest := ih (a.turn t) fun u hu => hturns u (List.mem_cons_of_mem t hu)
      refine (a.stream_turn (hturns t List.mem_cons_self)).trans ?_
      rw [trail, handed_append, List.append_assoc]
      exact (List.prefix_append_right_inj _).2 hrest

/-- The bytes of the block that the reader has at hand. -/
def atHand (a : Arm) : List UInt8 :=
  match a.reader with
  | some ⟨_, .gathering got⟩ => got
  | some ⟨_, .taking block⟩ => block
  | _ => []

theorem Placed.published_append {a : Arm} {epoch : List Sign} (h : a.Placed epoch) :
    published epoch ++ projected a.atHand = projected (handed epoch) ∧
      a.atHand.length ≤ frameSize := by
  have htiled (ht : Tiled epoch) :
      published epoch ++ projected [] = projected (handed epoch) ∧
        ([] : List UInt8).length ≤ frameSize := by
    refine ⟨?_, Nat.zero_le _⟩
    rw [projected_of_short (by decide), List.append_nil]
    exact ht
  rw [Placed] at h
  rw [atHand]
  cases hr : a.reader with
  | none =>
      rw [hr] at h
      exact htiled h
  | some r =>
      obtain ⟨n, phase⟩ := r
      rw [hr] at h
      cases phase with
      | gathering got => exact ⟨h.1.projected, h.1.le⟩
      | taking block => exact ⟨h.1.projected, h.1.le⟩
      | yielding | cutting | finished => exact htiled h
      | _ => exact htiled h.1

/-- What is published in an epoch are the snapshots of its blocks, counted from its first
byte. For the present epoch that is so up to the block that the reader has at hand, of
which there is no more than one. No bytes of an epoch come behind a loss of the link,
and the snapshot is always the last one published. The bytes themselves are those that
came to the link, in order and without a gap, unless the other side takes some back. -/
theorem published_eq_projected (config : Config) (bench : Bench)
    (timed : config.patience.receive ≠ 0) (turns : List Turn) :
    let start := Arm.new config bench
    let trail := start.trail turns
    let now := start.course turns
    (∀ epoch ∈ (epochs trail).dropLast, published epoch = projected (handed epoch)) ∧
    (∀ epoch ∈ (epochs trail).getLast?,
      published epoch ++ projected now.atHand = projected (handed epoch)) ∧
    now.atHand.length ≤ frameSize ∧
    (∀ epoch ∈ epochs trail,
      epoch.Pairwise fun s later => s.isLoss = true → later.isHanded = false) ∧
    now.feed.snapshot = (published trail).getLastD .blank ∧
    ∀ more, (∀ t ∈ more, ∀ link, t ≠ .sway link) →
      now.bench.realtime.stream <+:
        handed (now.trail more) ++ (now.course more).bench.realtime.stream := by
  intro start trail now
  have hstart : start.Accounted [] :=
    ⟨[], ⟨⟨[], rfl, fun _ he => nomatch he⟩, List.Pairwise.nil⟩, rfl⟩
  obtain ⟨last, hepochs, hplaced⟩ := hstart.course timed turns
  obtain ⟨done, hsplit, hdone⟩ := hepochs.split
  have htrail : epochs trail = done ++ [last] := hsplit
  obtain ⟨hpublished, hle⟩ := hplaced.published_append
  refine ⟨fun epoch he => ?_, fun epoch he => ?_, hle, fun epoch he => ?_,
    start.snapshot_course turns, fun more hmore => now.stream_course hmore⟩
  · rw [htrail, List.dropLast_concat] at he
    exact (hdone epoch he).1
  · rw [htrail, List.getLast?_concat] at he
    obtain rfl := Option.some.inj he
    exact hpublished
  · rw [htrail] at he
    rcases List.mem_append.1 he with he | he
    · exact (hdone epoch he).2
    · rw [List.mem_singleton.1 he]
      exact hepochs.settled

/-- A frame that comes in two pieces, of which the second is in front of one more byte. -/
theorem published_eq_projected_two_pieces :
    let config := Config.forAddress "controller"
    let frame := wordBytes 2 frameSize ++ gap 1438
    let link := { Link.fresh "down" true with
      inbox := [.bytes (frame.take 700), .bytes (frame.drop 700 ++ [7])] }
    let start := Arm.new config { config.unreachable with realtime := link }
    let turns := .start :: List.replicate 12 Turn.read
    let trail := start.trail turns
    let now := start.course turns
    (handed trail).length = 1441 ∧ (published trail).length = 1 ∧ now.atHand = [7] ∧
      ∀ epoch ∈ (epochs trail).getLast?,
        published epoch ++ projected now.atHand = projected (handed epoch) := by
  intro config frame link start turns trail now
  obtain ⟨-, hlast, -⟩ := published_eq_projected config
    { config.unreachable with realtime := link } (by decide) turns
  exact ⟨by decide +kernel, by decide +kernel, by decide +kernel, hlast⟩

end Arm

end ArmLink
