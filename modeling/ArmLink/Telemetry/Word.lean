/-!
# Little-endian words

A word is its bytes with the least significant one first, so the first byte is
the remainder by 256 and the others are the word of the quotient. Writing and
reading follow that same recursion, which is why they undo each other.
-/

namespace ArmLink.Telemetry

/-- The `count` bytes of a number, least significant first. -/
def wordBytes : Nat → Nat → List UInt8
  | 0, _ => []
  | count + 1, n => UInt8.ofNat (n % 256) :: wordBytes count (n / 256)

/-- The number whose bytes these are, least significant first. -/
def wordValue : List UInt8 → Nat
  | [] => 0
  | b :: rest => b.toNat + 256 * wordValue rest

@[simp] theorem wordBytes_length (count n : Nat) : (wordBytes count n).length = count := by
  induction count generalizing n with
  | zero => rfl
  | succ count ih => simp [wordBytes, ih]

theorem one_shiftLeft_byte (count : Nat) : 1 <<< (8 * (count + 1)) = 256 * 1 <<< (8 * count) := by
  simp only [Nat.shiftLeft_eq, Nat.mul_add, Nat.pow_add]
  omega

/-- A number that fits reads back from its bytes. -/
theorem wordValue_wordBytes {count n : Nat} (h : n < 1 <<< (8 * count)) :
    wordValue (wordBytes count n) = n := by
  induction count generalizing n with
  | zero =>
      simp only [Nat.mul_zero, Nat.shiftLeft_zero] at h
      simp only [wordBytes, wordValue]
      omega
  | succ count ih =>
      rw [one_shiftLeft_byte] at h
      have hq : n / 256 < 1 <<< (8 * count) := Nat.div_lt_of_lt_mul (by omega)
      have hb : (UInt8.ofNat (n % 256)).toNat = n % 256 := by
        rw [UInt8.toNat_ofNat']
        omega
      simp only [wordBytes, wordValue, ih hq, hb]
      omega

/-- The bytes of a number are determined by it. -/
theorem wordBytes_wordValue (bytes : List UInt8) :
    wordBytes bytes.length (wordValue bytes) = bytes := by
  induction bytes with
  | nil => rfl
  | cons b rest ih =>
      have hb : b.toNat < 256 := b.toNat_lt
      have hm : (b.toNat + 256 * wordValue rest) % 256 = b.toNat := by omega
      have hd : (b.toNat + 256 * wordValue rest) / 256 = wordValue rest := by omega
      simp only [wordValue, List.length_cons, wordBytes, hm, hd, ih]
      simp

theorem wordValue_lt (bytes : List UInt8) : wordValue bytes < 1 <<< (8 * bytes.length) := by
  induction bytes with
  | nil => simp [wordValue]
  | cons a rest ih =>
      have ha := a.toNat_lt
      rw [wordValue, List.length_cons, one_shiftLeft_byte]
      omega

/-- As many bytes of the same value are the same bytes. -/
theorem wordValue_inj {x y : List UInt8} (hl : x.length = y.length)
    (h : wordValue x = wordValue y) : x = y := by
  rw [← wordBytes_wordValue x, ← wordBytes_wordValue y, hl, h]

end ArmLink.Telemetry
