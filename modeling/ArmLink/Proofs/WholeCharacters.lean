import Mathlib.Algebra.Ring.Nat
import ArmLink.Text.Utf8

/-!
# Bytes cut into pieces, and the characters in them

A text that arrives in pieces is decoded piece by piece, and what comes out is the
text if no piece ends inside a character. The converse needs an argument, since the
ends of two pieces might conspire: it is that nothing gets shorter by decoding.
A character takes as many bytes as it was made of, and the replacement for an
ill-formed run takes three, which is as long as such a run can be. So if the
decoded pieces are together the text, then each of them takes exactly the bytes of
its piece, and is what the piece encodes.

Both the length and the place where a given character comes from are read off one
fact about a single byte, `step_held`. `Held` is what it is about: how many bytes
the decoder has taken without a piece to show for them, and that every way to
complete them is a character of the length that the first byte promised.
-/

namespace ArmLink.Text.Utf8

/-- A code point whose character takes so many bytes. -/
def Scalar (size n : Nat) : Prop :=
  n.isValidChar ∧ (Char.ofNat n).utf8Size = size

/-- The state after so many bytes of a character. -/
def Held : State → Nat → Prop
  | .start, n => n = 0
  | .inside bits least greatest more, n => 0 < n ∧ n + more < 4 ∧ 0x80 ≤ least ∧
      ∀ b low, least ≤ b → b ≤ greatest → low < 64 ^ more →
        Scalar (n + more + 1) ((bits * 64 + (b - 0x80)) * 64 ^ more + low)

/-- How many bytes a piece takes when it is written again. -/
def width : Piece → Nat
  | some c => c.utf8Size
  | none => 3

def totalWidth (pieces : List Piece) : Nat :=
  (pieces.map width).sum

theorem held_start : Held .start 0 := rfl

/-! ## One byte -/

theorem toNat_ofNat_of_valid {n : Nat} (h : n.isValidChar) : (Char.ofNat n).toNat = n := by
  rw [Char.ofNat, dif_pos h]
  rfl

theorem utf8Size_eq (c : Char) : c.utf8Size =
    if c.toNat < 0x80 then 1 else if c.toNat < 0x800 then 2
    else if c.toNat < 0x10000 then 3 else 4 := by
  unfold Char.utf8Size
  simp only [UInt32.le_iff_toNat_le]
  show (if c.toNat ≤ 127 then _ else if c.toNat ≤ 2047 then _
    else if c.toNat ≤ 65535 then _ else _) = _
  simp only [Nat.lt_succ_iff]

theorem scalar_iff {size n : Nat} (h : n.isValidChar) : Scalar size n ↔
    (if n < 0x80 then 1 else if n < 0x800 then 2 else if n < 0x10000 then 3 else 4) = size := by
  rw [Scalar, utf8Size_eq, toNat_ofNat_of_valid h]
  simp [h]

theorem held_first {bits least greatest more : Nat} (hmore : more < 3) (hleast : 0x80 ≤ least)
    (hwhole : ∀ b low, least ≤ b → b ≤ greatest → low < 64 ^ more →
      ∃ n, n = (bits * 64 + (b - 0x80)) * 64 ^ more + low ∧ n.isValidChar ∧
        (if n < 0x80 then 1 else if n < 0x800 then 2 else if n < 0x10000 then 3 else 4) =
          more + 2) :
    Held (.inside bits least greatest more) 1 := by
  refine ⟨by omega, by omega, hleast, fun b low hb hb' hlow => ?_⟩
  obtain ⟨n, rfl, hvalid, hsize⟩ := hwhole b low hb hb' hlow
  rw [show 1 + more + 1 = more + 2 by omega]
  exact (scalar_iff hvalid).2 hsize

/-- A first byte is a character by itself, begins one, or is ill-formed. -/
theorem first_held (b : Nat) : ∃ n, Held (first b).2 n ∧ 1 ≤ totalWidth (first b).1 + n ∧
    ∀ c, some c ∈ (first b).1 → c = Char.ofNat b ∧ b < 0x80 := by
  unfold first
  split
  · next hb =>
      refine ⟨0, rfl, ?_, by simp; omega⟩
      have hsize : (Char.ofNat b).utf8Size = 1 := by
        rw [utf8Size_eq, toNat_ofNat_of_valid (.inl (by omega)), if_pos hb]
      simp [totalWidth, width, hsize]
  -- The range of the second byte keeps out the surrogates and what has a shorter form.
  repeat'
    split
    · refine ⟨1, held_first (by omega) (by omega) fun b low hleast hgreatest hlow => ?_,
        by simp, by simp⟩
      refine ⟨_, rfl, ?_, ?_⟩
      · simp only [Nat.isValidChar]
        omega
      · repeat rw [if_neg (by omega)]
        try rw [if_pos (by omega)]
  exact ⟨0, rfl, by simp [totalWidth, width], by simp⟩

/-- A byte adds one to what is held, or what was held comes out, and is no longer than it was. -/
theorem step_held {state : State} {n : Nat} (h : Held state n) (b : Nat) :
    ∃ m, Held (step state b).2 m ∧ n + 1 ≤ totalWidth (step state b).1 + m ∧
      ∀ c, some c ∈ (step state b).1 → c.toNat < 0x80 → c = Char.ofNat b ∧ b < 0x80 := by
  cases state with
  | start =>
      obtain rfl : n = 0 := h
      obtain ⟨m, hheld, hwidth, hchar⟩ := first_held b
      exact ⟨m, hheld, by simpa [step] using hwidth, fun c hc _ => hchar c hc⟩
  | inside bits least greatest more =>
      obtain ⟨hpos, hshort, -, hscalar⟩ := h
      rw [step]
      split
      · next hrange =>
          cases more with
          | zero =>
              have hsize : (Char.ofNat (bits * 64 + (b - 0x80))).utf8Size = n + 1 := by
                have hlow := hscalar b 0 hrange.1 hrange.2 Nat.one_pos
                simp only [Nat.pow_zero, Nat.mul_one, Nat.add_zero] at hlow
                exact hlow.2
              dsimp only
              generalize Char.ofNat (bits * 64 + (b - 0x80)) = whole at hsize ⊢
              refine ⟨0, rfl, by simp [totalWidth, width, hsize], fun c hc hascii => ?_⟩
              obtain rfl : c = whole := by simpa using hc
              rw [utf8Size_eq, if_pos hascii] at hsize
              omega
          | succ more =>
              refine ⟨n + 1, ⟨by omega, by omega, Nat.le_refl _, fun b' low hleast hgreatest hlow => ?_⟩,
                by simp, by simp⟩
              have hwhole := hscalar b ((b' - 0x80) * 64 ^ more + low) hrange.1 hrange.2 (by
                have hsplit : 64 ^ (more + 1) = 63 * 64 ^ more + 64 ^ more := by
                  rw [Nat.pow_succ]
                  omega
                have hle := Nat.mul_le_mul_right (64 ^ more) (show b' - 0x80 ≤ 63 by omega)
                omega)
              rw [show n + (more + 1) + 1 = n + 1 + more + 1 by omega, ← Nat.add_assoc,
                Nat.pow_succ', ← Nat.mul_assoc, ← Nat.add_mul] at hwhole
              exact hwhole
      · obtain ⟨m, hheld, hwidth, hchar⟩ := first_held b
        refine ⟨m, hheld, ?_, fun c hc _ => hchar c (by simpa using hc)⟩
        simp only [totalWidth, List.map_cons, List.sum_cons, width] at hwidth ⊢
        omega

theorem piecesFrom_cons (state : State) (b : UInt8) (rest : List UInt8) :
    piecesFrom state (b :: rest) =
      (step state b.toNat).1 ++ piecesFrom (step state b.toNat).2 rest := by
  rw [piecesFrom]

theorem totalWidth_append (a b : List Piece) :
    totalWidth (a ++ b) = totalWidth a + totalWidth b := by
  simp [totalWidth]

theorem length_le_totalWidth {state : State} {n : Nat} (h : Held state n) (bytes : List UInt8) :
    n + bytes.length ≤ totalWidth (piecesFrom state bytes) := by
  induction bytes generalizing state n with
  | nil =>
      cases state with
      | start =>
          obtain rfl : n = 0 := h
          exact Nat.zero_le _
      | inside bits least greatest more =>
          have hshort : n + more < 4 := h.2.1
          show n + 0 ≤ 3
          omega
  | cons b rest ih =>
      obtain ⟨m, hheld, hwidth, -⟩ := step_held h b.toNat
      have hrest := ih hheld
      rw [piecesFrom_cons, totalWidth_append, List.length_cons]
      omega

theorem mem_of_mem_piecesFrom {state : State} {n : Nat} (h : Held state n) {bytes : List UInt8}
    {c : Char} (hc : some c ∈ piecesFrom state bytes) (hascii : c.toNat < 0x80) :
    UInt8.ofNat c.toNat ∈ bytes := by
  induction bytes generalizing state n with
  | nil => cases state <;> simp [piecesFrom] at hc
  | cons b rest ih =>
      obtain ⟨m, hheld, -, hchar⟩ := step_held h b.toNat
      rw [piecesFrom_cons, List.mem_append] at hc
      rcases hc with hc | hc
      · obtain ⟨rfl, hb⟩ := hchar c hc hascii
        rw [toNat_ofNat_of_valid (.inl (by omega)), UInt8.ofNat_toNat]
        exact List.mem_cons_self
      · exact List.mem_cons_of_mem b (ih hheld hc)

/-- An ASCII byte ends whatever is held, as the end of the bytes does, and is a character by
itself. -/
theorem piecesFrom_ascii {state : State} {n : Nat} (h : Held state n) {c : Char}
    (hascii : c.toNat < 0x80) (bytes more : List UInt8) :
    piecesFrom state (bytes ++ UInt8.ofNat c.toNat :: more) =
      piecesFrom state bytes ++ some c :: piecesFrom .start more := by
  induction bytes generalizing state n with
  | nil =>
      have hfirst : first c.toNat = ([some c], .start) := by
        rw [first, if_pos hascii, Char.ofNat_toNat]
      rw [List.nil_append, piecesFrom_cons, UInt8.toNat_ofNat', Nat.mod_eq_of_lt (by omega)]
      cases state with
      | start =>
          rw [step, hfirst]
          rfl
      | inside bits least greatest rest =>
          have hleast : 0x80 ≤ least := h.2.2.1
          rw [step, if_neg (by omega), hfirst]
          rfl
  | cons byte rest ih =>
      obtain ⟨m, hheld, -⟩ := step_held h byte.toNat
      rw [List.cons_append, piecesFrom_cons, piecesFrom_cons, ih hheld, List.append_assoc]

/-! ## Decoding, and writing again -/

theorem length_le_encode_decodeLossy (bytes : List UInt8) :
    bytes.length ≤ (encode (decodeLossy bytes)).length := by
  have hwidth : (String.utf8EncodeChar · |>.length) ∘ (·.getD '\uFFFD') = width := by
    funext piece
    rw [Function.comp_apply, String.length_utf8EncodeChar]
    cases piece <;> rfl
  have hlength := length_le_totalWidth held_start bytes
  rw [Nat.zero_add] at hlength
  rw [encode, decodeLossy, String.toList_ofList, List.length_flatMap, List.map_map, hwidth]
  exact hlength

theorem decodeLossy_append_ascii {c : Char} (hascii : c.toNat < 0x80) (bytes more : List UInt8) :
    (decodeLossy (bytes ++ UInt8.ofNat c.toNat :: more)).toList =
      (decodeLossy bytes).toList ++ c :: (decodeLossy more).toList := by
  simp [decodeLossy, piecesFrom_ascii held_start hascii]

theorem mem_decodeLossy_iff {bytes : List UInt8} {c : Char} (hascii : c.toNat < 0x80) :
    c ∈ (decodeLossy bytes).toList ↔ UInt8.ofNat c.toNat ∈ bytes := by
  constructor
  · intro hc
    rw [decodeLossy, String.toList_ofList] at hc
    obtain ⟨piece, hpiece, rfl⟩ := List.mem_map.1 hc
    cases piece with
    | none => exact absurd hascii (by decide)
    | some c => exact mem_of_mem_piecesFrom held_start hpiece hascii
  · intro hbyte
    obtain ⟨before, behind, rfl⟩ := List.append_of_mem hbyte
    rw [decodeLossy_append_ascii hascii]
    exact List.mem_append_right _ List.mem_cons_self

/-! ## Characters as they are written -/

theorem piecesFrom_first {bits least greatest more b : Nat} {rest : List UInt8} (hb : b < 256)
    (hfirst : first b = ([], .inside bits least greatest more)) :
    piecesFrom .start (UInt8.ofNat b :: rest) =
      piecesFrom (.inside bits least greatest more) rest := by
  rw [piecesFrom_cons, UInt8.toNat_ofNat', Nat.mod_eq_of_lt hb, step, hfirst]
  rfl

theorem piecesFrom_more {bits least greatest more b : Nat} {rest : List UInt8} (hleast : least ≤ b)
    (hgreatest : b ≤ greatest) (hb : b < 256) :
    piecesFrom (.inside bits least greatest (more + 1)) (UInt8.ofNat b :: rest) =
      piecesFrom (.inside (bits * 64 + (b - 0x80)) 0x80 0xBF more) rest := by
  rw [piecesFrom_cons, UInt8.toNat_ofNat', Nat.mod_eq_of_lt hb, step, if_pos ⟨hleast, hgreatest⟩]
  rfl

theorem piecesFrom_last {bits least greatest b : Nat} {rest : List UInt8} (hleast : least ≤ b)
    (hgreatest : b ≤ greatest) (hb : b < 256) :
    piecesFrom (.inside bits least greatest 0) (UInt8.ofNat b :: rest) =
      some (Char.ofNat (bits * 64 + (b - 0x80))) :: piecesFrom .start rest := by
  rw [piecesFrom_cons, UInt8.toNat_ofNat', Nat.mod_eq_of_lt hb, step, if_pos ⟨hleast, hgreatest⟩]
  rfl

/-- The range after the first of three bytes holds the second of them. -/
theorem first_of_three {n : Nat} (hleast : 0x800 ≤ n) (hgreatest : n < 0x10000)
    (hvalid : n < 0xD800 ∨ 0xDFFF < n) : ∃ bits least greatest,
      first (n / 4096 % 16 + 0xE0) = ([], .inside bits least greatest 1) ∧ bits = n / 4096 ∧
        least ≤ n / 64 % 64 + 0x80 ∧ n / 64 % 64 + 0x80 ≤ greatest := by
  unfold first
  repeat' split
  all_goals first
    | exact ⟨_, _, _, rfl, by omega, by omega, by omega⟩
    | omega

theorem first_of_four {n : Nat} (hleast : 0x10000 ≤ n) (hvalid : n < 0x110000) :
    ∃ bits least greatest,
      first (n / 262144 % 8 + 0xF0) = ([], .inside bits least greatest 2) ∧ bits = n / 262144 ∧
        least ≤ n / 4096 % 64 + 0x80 ∧ n / 4096 % 64 + 0x80 ≤ greatest := by
  unfold first
  repeat' split
  all_goals first
    | exact ⟨_, _, _, rfl, by omega, by omega, by omega⟩
    | omega

theorem piecesFrom_encodeChar (c : Char) (rest : List UInt8) :
    piecesFrom .start (String.utf8EncodeChar c ++ rest) = some c :: piecesFrom .start rest := by
  have hvalid : c.toNat < 0xD800 ∨ 0xDFFF < c.toNat ∧ c.toNat < 0x110000 := c.valid
  obtain ⟨n, hn⟩ : ∃ n, c.toNat = n := ⟨_, rfl⟩
  have hchar : some c = some (Char.ofNat n) := by rw [← hn, Char.ofNat_toNat]
  rw [hn] at hvalid
  rw [String.utf8EncodeChar, show c.val.toNat = n from hn, hchar]
  split
  · rw [List.singleton_append, piecesFrom_cons, UInt8.toNat_ofNat', Nat.mod_eq_of_lt (by omega),
      step, first, if_pos (by omega)]
    rfl
  · split
    · have hfirst : first (n / 64 % 32 + 0xC0) = ([], .inside (n / 64) 0x80 0xBF 0) := by
        rw [first, if_neg (by omega), if_pos (by omega),
          show n / 64 % 32 + 0xC0 - 0xC0 = n / 64 by omega]
      simp only [List.cons_append, List.nil_append]
      rw [piecesFrom_first (by omega) hfirst, piecesFrom_last (by omega) (by omega) (by omega),
        show n / 64 * 64 + (n % 64 + 0x80 - 0x80) = n by omega]
    · split
      · obtain ⟨bits, least, greatest, hfirst, rfl, hleast, hgreatest⟩ :=
          first_of_three (n := n) (by omega) (by omega) (by omega)
        simp only [List.cons_append, List.nil_append]
        rw [piecesFrom_first (by omega) hfirst, piecesFrom_more hleast hgreatest (by omega),
          piecesFrom_last (by omega) (by omega) (by omega),
          show (n / 4096 * 64 + (n / 64 % 64 + 0x80 - 0x80)) * 64 + (n % 64 + 0x80 - 0x80) = n
            by omega]
      · obtain ⟨bits, least, greatest, hfirst, rfl, hleast, hgreatest⟩ :=
          first_of_four (n := n) (by omega) (by omega)
        simp only [List.cons_append, List.nil_append]
        rw [piecesFrom_first (by omega) hfirst, piecesFrom_more hleast hgreatest (by omega),
          piecesFrom_more (by omega) (by omega) (by omega),
          piecesFrom_last (by omega) (by omega) (by omega),
          show ((n / 262144 * 64 + (n / 4096 % 64 + 0x80 - 0x80)) * 64 +
            (n / 64 % 64 + 0x80 - 0x80)) * 64 + (n % 64 + 0x80 - 0x80) = n by omega]

theorem decodeLossy_encode (text : String) : decodeLossy (encode text) = text := by
  have hpieces (chars : List Char) :
      piecesFrom .start (chars.flatMap String.utf8EncodeChar) = chars.map some := by
    induction chars with
    | nil => rfl
    | cons c rest ih =>
        rw [List.flatMap_cons, piecesFrom_encodeChar, ih, List.map_cons]
  rw [encode, decodeLossy, hpieces, List.map_map]
  show String.ofList (text.toList.map id) = text
  rw [List.map_id, String.ofList_toList]

/-! ## Cutting -/

/-- The text of pieces of which each is decoded by itself. -/
def decodeApart (pieces : List (List UInt8)) : String :=
  String.ofList (pieces.flatMap fun piece => (decodeLossy piece).toList)

theorem encode_decodeLossy_of_flatten {pieces : List (List UInt8)}
    (h : (pieces.flatMap fun piece => encode (decodeLossy piece)) = pieces.flatten) :
    ∀ piece ∈ pieces, encode (decodeLossy piece) = piece := by
  have hlength (pieces : List (List UInt8)) : pieces.flatten.length ≤
      (pieces.flatMap fun piece => encode (decodeLossy piece)).length := by
    induction pieces with
    | nil => exact Nat.le_refl _
    | cons piece rest ih =>
        rw [List.flatMap_cons, List.flatten_cons, List.length_append, List.length_append]
        exact Nat.add_le_add (length_le_encode_decodeLossy piece) ih
  induction pieces with
  | nil => simp
  | cons piece rest ih =>
      rw [List.flatMap_cons, List.flatten_cons] at h
      have hboth := congrArg List.length h
      rw [List.length_append, List.length_append] at hboth
      have hpiece := length_le_encode_decodeLossy piece
      have hrest := hlength rest
      obtain ⟨hhead, htail⟩ := List.append_inj h (by omega)
      exact List.forall_mem_cons.2 ⟨hhead, ih htail⟩

/-- Text that is decoded in pieces comes out as it is exactly when no piece ends inside a
character. -/
theorem decodeApart_eq_iff {pieces : List (List UInt8)} {text : String}
    (h : pieces.flatten = encode text) :
    decodeApart pieces = text ↔ ∀ piece ∈ pieces, ∃ part, piece = encode part := by
  have hagain : encode (decodeApart pieces) =
      pieces.flatMap fun piece => encode (decodeLossy piece) := by
    rw [decodeApart, encode, String.toList_ofList, List.flatMap_assoc]
    rfl
  constructor
  · intro hapart piece hpiece
    rw [hapart, ← h] at hagain
    exact ⟨_, (encode_decodeLossy_of_flatten hagain.symm piece hpiece).symm⟩
  · intro hparts
    have hsame : (pieces.flatMap fun piece => encode (decodeLossy piece)) = pieces.flatten := by
      rw [List.flatMap_def, List.map_congr_left (g := id) fun piece hpiece => ?_, List.map_id]
      obtain ⟨part, rfl⟩ := hparts piece hpiece
      rw [decodeLossy_encode, id]
    rw [← decodeLossy_encode (decodeApart pieces), hagain, hsame, h, decodeLossy_encode]

/-- An ASCII character that comes last among the bytes, and nowhere before, comes last in the
text. -/
theorem decodeApart_last {c : Char} (hascii : c.toNat < 0x80) {pieces : List (List UInt8)}
    {bytes : List UInt8} (h : pieces.flatten = bytes ++ [UInt8.ofNat c.toNat])
    (hbytes : UInt8.ofNat c.toNat ∉ bytes) :
    ∃ head, (decodeApart pieces).toList = head ++ [c] ∧ c ∉ head := by
  have hsilent {bytes : List UInt8} (hbytes : UInt8.ofNat c.toNat ∉ bytes) :
      c ∉ (decodeLossy bytes).toList :=
    mt (mem_decodeLossy_iff hascii).1 hbytes
  simp only [decodeApart, String.toList_ofList]
  induction pieces generalizing bytes with
  | nil => simp at h
  | cons piece rest ih =>
      rw [List.flatten_cons] at h
      rw [List.flatMap_cons]
      rcases List.eq_nil_or_concat rest.flatten with hrest | ⟨more, last, hmore⟩
      · rw [hrest, List.append_nil] at h
        have hnone : (rest.flatMap fun piece => (decodeLossy piece).toList) = [] := by
          refine List.flatMap_eq_nil_iff.2 fun piece hpiece => ?_
          rw [List.flatten_eq_nil_iff.1 hrest piece hpiece]
          rfl
        refine ⟨(decodeLossy bytes).toList, ?_, hsilent hbytes⟩
        rw [h, decodeLossy_append_ascii hascii, hnone, List.append_nil]
        rfl
      · rw [List.concat_eq_append] at hmore
        rw [hmore, ← List.append_assoc] at h
        obtain ⟨rfl, hlast⟩ := List.append_inj' h rfl
        rw [hlast] at hmore
        rw [List.mem_append, not_or] at hbytes
        obtain ⟨head, hhead, hnot⟩ := ih hmore hbytes.2
        refine ⟨_, by rw [hhead, List.append_assoc], ?_⟩
        rw [List.mem_append, not_or]
        exact ⟨hsilent hbytes.1, hnot⟩

end ArmLink.Text.Utf8
