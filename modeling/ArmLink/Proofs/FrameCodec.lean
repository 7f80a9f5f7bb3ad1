import ArmLink.Telemetry.Snapshot
import Mathlib.Algebra.Ring.Int.Defs
import Mathlib.Algebra.Ring.Nat

/-!
# The frame codec

What a frame is read from and what it is written to. The fields are given once more
here as a table of stretches, apart from the reader and the writer, and both are
held against it: two blocks that are taken as frames are the same frame exactly when
they agree on every stretch of the table. The one direction says that no other byte
matters, the other that every byte of the table does, so that no field is cut short
by its neighbour or by the end of the block.
-/

namespace ArmLink.Telemetry

/-- A stretch of a block. -/
structure Span where
  start : Nat
  width : Nat
  deriving DecidableEq, Repr

/-- What is read of a frame: its length, four words, the joints, the tool vector, five bytes
of status and the quaternion. -/
def fields : List Span :=
  [⟨0, 2⟩, ⟨8, 8⟩, ⟨16, 8⟩, ⟨24, 8⟩, ⟨32, 8⟩, ⟨432, 48⟩, ⟨624, 48⟩,
    ⟨1025, 1⟩, ⟨1026, 1⟩, ⟨1027, 1⟩, ⟨1028, 1⟩, ⟨1029, 1⟩, ⟨1384, 32⟩]

/-- Two blocks have the same bytes from a place on, so many of them. -/
def Agree (b b' : List UInt8) (start width : Nat) : Prop :=
  ∀ i, start ≤ i → i < start + width → b[i]? = b'[i]?

variable {b b' : List UInt8}

/-! ## What a stretch determines -/

theorem agree_iff_take (start width : Nat) :
    Agree b b' start width ↔ (b.drop start).take width = (b'.drop start).take width := by
  constructor
  · intro h
    apply List.ext_getElem?
    intro i
    by_cases hi : i < width
    · simp only [List.getElem?_take, List.getElem?_drop, hi, if_true]
      exact h (start + i) (by omega) (by omega)
    · rw [List.getElem?_take, List.getElem?_take, if_neg hi, if_neg hi]
  · intro h i hs hw
    have hi : i - start < width := by omega
    have hg := congrArg (fun l : List UInt8 => l[i - start]?) h
    simp only [List.getElem?_take, List.getElem?_drop, hi, if_true] at hg
    rwa [Nat.add_sub_cancel' hs] at hg

/-- A row of stretches is one stretch. -/
theorem agree_row (start width n : Nat) :
    (∀ k < n, Agree b b' (start + width * k) width) ↔ Agree b b' start (width * n) := by
  constructor
  · intro h i hs hw
    have hpos : 0 < width := by
      rcases Nat.eq_zero_or_pos width with rfl | hp
      · omega
      · exact hp
    have hk : (i - start) / width < n := Nat.div_lt_of_lt_mul (by omega)
    have hd := Nat.div_add_mod (i - start) width
    have hm := Nat.mod_lt (i - start) hpos
    exact h _ hk i (by omega) (by omega)
  · intro h k hk i hs hw
    have hle : width * (k + 1) ≤ width * n := Nat.mul_le_mul_left width hk
    rw [Nat.mul_add, Nat.mul_one] at hle
    exact h i (by omega) (by omega)

theorem length_stretch {start width : Nat} (h : start + width ≤ b.length) :
    ((b.drop start).take width).length = width := by
  simp only [List.length_take, List.length_drop]
  omega

/-- The value of a word of a block. -/
theorem wordAt_toNat {o : Nat} (h : o + 8 ≤ b.length) :
    (wordAt b o).toNat = wordValue ((b.drop o).take 8) := by
  have hlt := wordValue_lt ((b.drop o).take 8)
  rw [length_stretch h] at hlt
  rw [wordAt, UInt64.toNat_ofNat', Nat.mod_eq_of_lt]
  omega

theorem wordAt_eq_iff {o : Nat} (h : o + 8 ≤ b.length) (h' : o + 8 ≤ b'.length) :
    wordAt b o = wordAt b' o ↔ Agree b b' o 8 := by
  rw [agree_iff_take, ← UInt64.toNat_inj, wordAt_toNat h, wordAt_toNat h']
  constructor
  · exact wordValue_inj (by rw [length_stretch h, length_stretch h'])
  · exact congrArg wordValue

theorem wordsAt_eq_iff {n o : Nat} (h : o + 8 * n ≤ b.length) (h' : o + 8 * n ≤ b'.length) :
    wordsAt n b o = wordsAt n b' o ↔ Agree b b' o (8 * n) := by
  rw [← agree_row, wordsAt, wordsAt, Vector.ext_iff]
  simp only [Vector.getElem_ofFn]
  refine forall₂_congr fun k hk => ?_
  exact wordAt_eq_iff (by omega) (by omega)

theorem byteAt_eq_iff {o : Nat} (h : o < b.length) (h' : o < b'.length) :
    byteAt b o = byteAt b' o ↔ Agree b b' o 1 := by
  rw [agree_iff_take, byteAt, byteAt, List.drop_eq_getElem_cons h, List.drop_eq_getElem_cons h']
  simp only [List.headD_cons, List.take_succ_cons, List.take_zero, List.cons.injEq, and_true]

/-! ## What a frame is read from -/

/-- A block that is a frame: it has the size of one and says so. -/
theorem decode_eq_frame_iff {f : Frame} :
    decode b = .frame f ↔
      (b.length = frameSize ∧ b.take 2 = wordBytes 2 frameSize) ∧ f = Frame.ofBytes b := by
  have hsize : frameSize = wordValue (wordBytes 2 frameSize) := by decide
  rcases b with _ | ⟨x, _ | ⟨y, rest⟩⟩
  · simp [decode, frameSize]
  · simp [decode, frameSize]
  · have hdeclared : wordValue [x, y] = frameSize ↔ [x, y] = wordBytes 2 frameSize := by
      constructor
      · intro h
        exact wordValue_inj rfl (h.trans hsize)
      · intro h
        rw [h, ← hsize]
    simp only [decode, hdeclared, List.take_succ_cons, List.take_zero]
    split
    · next h => simp [h, eq_comm]
    · next h => simp only [h, false_and, reduceCtorEq]

/-- The fields of two blocks of the right size are the same when the blocks agree on all of
them, the length aside. -/
theorem ofBytes_eq_iff (h : b.length = frameSize) (h' : b'.length = frameSize) :
    Frame.ofBytes b = Frame.ofBytes b' ↔ ∀ s ∈ fields.tail, Agree b b' s.start s.width := by
  rw [frameSize] at h h'
  simp only [Frame.ofBytes, Frame.mk.injEq]
  rw [wordAt_eq_iff, wordAt_eq_iff, wordAt_eq_iff, wordAt_eq_iff, wordsAt_eq_iff, wordsAt_eq_iff,
    byteAt_eq_iff, byteAt_eq_iff, byteAt_eq_iff, byteAt_eq_iff, byteAt_eq_iff, wordsAt_eq_iff]
  · simp [fields]
  all_goals omega

/-! ## What a frame is written to -/

theorem wordAt_behind {l r : List UInt8} {o : Nat} (h : l.length ≤ o) :
    wordAt (l ++ r) o = wordAt r (o - l.length) := by
  rw [wordAt, List.drop_append, List.drop_eq_nil_of_le h, List.nil_append, wordAt]

theorem byteAt_behind {l r : List UInt8} {o : Nat} (h : l.length ≤ o) :
    byteAt (l ++ r) o = byteAt r (o - l.length) := by
  rw [byteAt, List.drop_append, List.drop_eq_nil_of_le h, List.nil_append, byteAt]

theorem wordsAt_behind {l r : List UInt8} {n o : Nat} (h : l.length ≤ o) :
    wordsAt n (l ++ r) o = wordsAt n r (o - l.length) := by
  ext k hk
  have hle : l.length ≤ o + 8 * k := by omega
  simp only [wordsAt, Vector.getElem_ofFn, wordAt_behind hle, Nat.sub_add_comm h]

theorem wordAt_putWord (w : UInt64) (r : List UInt8) : wordAt (putWord w ++ r) 0 = w := by
  have hlt : w.toNat < 1 <<< (8 * 8) := w.toNat_lt
  have hw : (putWord w ++ r).take 8 = putWord w := List.take_left' (putWord_length w)
  rw [wordAt, List.drop_zero, hw, putWord, wordValue_wordBytes hlt, UInt64.ofNat_toNat]

theorem wordAt_flatMap_putWord (ws : List UInt64) (r : List UInt8) {k : Nat}
    (hk : k < ws.length) : wordAt (ws.flatMap putWord ++ r) (8 * k) = ws[k] := by
  induction ws generalizing k with
  | nil => simp at hk
  | cons w rest ih =>
      rw [List.flatMap_cons, List.append_assoc]
      cases k with
      | zero => exact wordAt_putWord w _
      | succ k =>
          have hlen : (putWord w).length = 8 := putWord_length w
          rw [wordAt_behind (by omega), hlen, show 8 * (k + 1) - 8 = 8 * k by omega]
          exact ih (by simpa using hk)

theorem wordsAt_putWords {n : Nat} (ws : Vector UInt64 n) (r : List UInt8) :
    wordsAt n (putWords ws ++ r) 0 = ws := by
  ext k hk
  have hlen : k < ws.toList.length := by simpa using hk
  simp only [wordsAt, Vector.getElem_ofFn, Nat.zero_add, putWords,
    wordAt_flatMap_putWord ws.toList r hlen, Vector.getElem_toList]

/-- Every field is read back from where it was written. -/
theorem ofBytes_encode (f : Frame) : Frame.ofBytes (encode f) = f := by
  simp (disch := simp [putWord_length, putWords_length, gap_length]) only
    [Frame.ofBytes, encode, List.append_assoc, wordAt_behind, wordsAt_behind, byteAt_behind]
  simp only [wordBytes_length, gap_length, putWord_length, putWords_length, List.length_cons,
    List.length_nil, Nat.reduceMul, Nat.reduceAdd, Nat.reduceSub, wordAt_putWord, wordsAt_putWords]
  -- The five bytes of status stand at the head of what is left.
  rfl

theorem decode_encode (f : Frame) : decode (encode f) = .frame f := by
  refine decode_eq_frame_iff.mpr ⟨⟨encode_length f, ?_⟩, (ofBytes_encode f).symm⟩
  simp only [encode, List.append_assoc]
  exact List.take_left' (wordBytes_length 2 _)

/-! ## The mode -/

/-- A word of 64 bits as a signed number in two's complement. -/
def twosComplement (n : Nat) : Int :=
  if n < 2 ^ 63 then n else n - 2 ^ 64

theorem twosComplement_injective {m n : Nat} (hm : m < 2 ^ 64) (hn : n < 2 ^ 64)
    (h : twosComplement m = twosComplement n) : m = n := by
  unfold twosComplement at h
  split at h <;> split at h <;> omega

theorem toInt_toInt64 (w : UInt64) : w.toInt64.toInt = twosComplement w.toNat := by
  have h : w.toInt64.toInt = w.toBitVec.toInt := rfl
  have hw : w.toBitVec.toNat = w.toNat := rfl
  rw [h, BitVec.toInt_eq_toNat_cond, hw, twosComplement]
  split <;> split <;> omega

/-- What a frame tells of the mode, whatever was known before it. -/
theorem mode_take {f : Frame} (h : decode b = .frame f) (before : Snapshot) :
    (before.take b).1.mode =
      some (Robot.Mode.ofRaw (twosComplement (wordValue ((b.drop 24).take 8)))) := by
  obtain ⟨⟨hlen, -⟩, rfl⟩ := decode_eq_frame_iff.mp h
  rw [Snapshot.take, h]
  simp only [Snapshot.ofFrame, Frame.ofBytes, toInt_toInt64]
  rw [wordAt_toNat (by rw [hlen, frameSize]; omega)]

/-- A frame goes through its bytes unchanged; a block is a frame when it has the size of one and
begins with it; two frames are the same when their blocks agree on the fields, whatever else is
in them, and only then; and the mode is the number in the mode word, so that different words
are different modes. -/
theorem frame_codec :
    (∀ f : Frame, (encode f).length = 1440 ∧ decode (encode f) = .frame f) ∧
    (∀ b, (∃ f, decode b = .frame f) ↔ b.length = 1440 ∧ b.take 2 = [0xa0, 0x05]) ∧
    ∀ (b b' : List UInt8) (f f' : Frame), decode b = .frame f → decode b' = .frame f' →
      (f = f' ↔ ∀ s ∈ fields, Agree b b' s.start s.width) ∧
      ∀ before before' : Snapshot,
        (∃ mode, (before.take b).1.mode = some mode ∧
          mode.raw = twosComplement (wordValue ((b.drop 24).take 8))) ∧
        ((before.take b).1.mode = (before'.take b').1.mode ↔ Agree b b' 24 8) := by
  refine ⟨fun f => ⟨encode_length f, decode_encode f⟩, fun b => ?_, ?_⟩
  · have hhead : wordBytes 2 frameSize = [0xa0, 0x05] := by decide
    simp only [decode_eq_frame_iff, hhead, exists_and_left, exists_eq, and_true]
    exact Iff.rfl
  intro b b' f f' hb hb'
  obtain ⟨⟨hlen, hhead⟩, hf⟩ := decode_eq_frame_iff.mp hb
  obtain ⟨⟨hlen', hhead'⟩, hf'⟩ := decode_eq_frame_iff.mp hb'
  have hsize : Agree b b' 0 2 := by
    rw [agree_iff_take, List.drop_zero, List.drop_zero, hhead, hhead']
  have hfields : fields = ⟨0, 2⟩ :: fields.tail := rfl
  refine ⟨?_, fun before before' => ⟨⟨_, mode_take hb before, Robot.Mode.raw_ofRaw _⟩, ?_⟩⟩
  · rw [hf, hf', ofBytes_eq_iff hlen hlen', hfields, List.forall_mem_cons, List.tail_cons]
    exact (and_iff_right hsize).symm
  · have hword : 24 + 8 ≤ b.length := by rw [hlen, frameSize]; omega
    have hword' : 24 + 8 ≤ b'.length := by rw [hlen', frameSize]; omega
    rw [mode_take hb, mode_take hb', ← wordAt_eq_iff hword hword', ← wordAt_toNat hword,
      ← wordAt_toNat hword']
    constructor
    · intro h
      have hraw := Robot.Mode.ofRaw_injective (Option.some.inj h)
      exact UInt64.toNat_inj.mp
        (twosComplement_injective (UInt64.toNat_lt _) (UInt64.toNat_lt _) hraw)
    · intro h
      rw [h]

/-- A frame with nothing in it but its mode. -/
def Frame.inMode (word : UInt64) : Frame :=
  { digitalInputs := 0, digitalOutputs := 0, mode := word, timestamp := 0,
    joints := Vector.replicate 6 0, tool := Vector.replicate 6 0,
    brake := 0, enabled := 0, drag := 0, running := 0, error := 0,
    quaternion := Vector.replicate 4 0 }

/-- The first byte of the mode word is enough to tell two frames and their modes apart. -/
theorem frame_codec_other_mode :
    decode (encode (.inMode 5)) ≠ decode (encode (.inMode 4)) ∧
    (Snapshot.blank.take (encode (.inMode 5))).1.mode ≠
      (Snapshot.blank.take (encode (.inMode 4))).1.mode := by
  have hfive := (frame_codec.1 (.inMode 5)).2
  have hfour := (frame_codec.1 (.inMode 4)).2
  obtain ⟨hframes, hmodes⟩ := frame_codec.2.2 _ _ _ _ hfive hfour
  have hbyte : ¬ Agree (encode (.inMode 5)) (encode (.inMode 4)) 24 8 := by
    intro h
    exact absurd (h 24 (by decide) (by decide)) (by decide +kernel)
  constructor
  · intro h
    rw [hfive, hfour, Block.frame.injEq, hframes] at h
    exact hbyte (h ⟨24, 8⟩ (by decide))
  · intro h
    exact hbyte ((hmodes Snapshot.blank Snapshot.blank).2.mp h)

end ArmLink.Telemetry
