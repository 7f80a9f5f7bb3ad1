import ArmLink.Dashboard.Request
import ArmLink.Proofs.Decimals
import ArmLink.Proofs.FrameCodec
import ArmLink.Proofs.ListGrammar

/-!
# Replies that are read as an integer

An integer is read off a reply by way of a double, so the number that is looked at is not
the one in the payload but the double nearest to it. For an integer that is a double the
two are the same and it comes out as it went in, whichever way it is written; that holds
for all of them up to 2^53, and so for every mode and every level a controller reports.
Beyond that it is the double that decides: whether there is a fraction, which integer it
is, and at which end of the range it stops.
-/

namespace ArmLink

open ArmLink.Decimal
open ArmLink.Text (trim trim_trim)
open Binary64 (abs_sign_mul assemble ofFloat sign value?)

/-! ## The double nearest to an integer -/

namespace Decimal

/-- The number is a double. -/
def IsDouble (q : ℚ) : Prop :=
  ∃ x, rational? x = some q

/-- The integers of up to 53 bits are doubles, and so is the one next to them. -/
theorem isDouble_integer {n : ℤ} (h : n.natAbs ≤ 2 ^ 53) : IsDouble n := by
  obtain ⟨x, hx⟩ := exists_double (n := n) (e := 0) (abs_le.2 ⟨by omega, by omega⟩)
    (by decide) (by decide)
  exact ⟨x, by simpa using hx⟩

/-- A number whose nearest double is an integer is close to it, unless the integer is large. -/
theorem IsNearest.near_integer {q : ℚ} {x : Float} {n : ℤ} (h : IsNearest q x)
    (hx : rational? x = some (n : ℚ)) (hn : n.natAbs < 2 ^ 53) : |q - n| ≤ 1 / 2 := by
  obtain ⟨above, habove⟩ := isDouble_integer (n := n + 1) (by omega)
  obtain ⟨below, hbelow⟩ := isDouble_integer (n := n - 1) (by omega)
  have hup := h.within hx habove
  have hdown := h.within hx hbelow
  push_cast at hup hdown
  rw [abs_sub_comm]
  rcases le_total q n with hle | hle
  · rw [abs_of_nonneg (by linarith)] at hdown ⊢
    rcases le_abs.1 hdown with hd | hd <;> linarith
  · rw [abs_of_nonpos (by linarith)] at hup ⊢
    rcases le_abs.1 hup with hd | hd <;> linarith

theorem rational?_least : rational? (Float.ofBits 1) = some (2 ^ (-1074 : ℤ)) := by
  have hparts : ofFloat (Float.ofBits 1) = .finite false 1 (-1074) := by decide +kernel
  simp [rational?, hparts, value?, sign]

theorem IsNearest.abs_le_of_zero {q : ℚ} {x : Float} (h : IsNearest q x) (hx : rational? x = some 0) :
    |q| ≤ 2 ^ (-1074 : ℤ) / 2 := by
  have hunit : (0 : ℚ) < 2 ^ (-1074 : ℤ) := by positivity
  have hleastNeg : rational? (Float.ofBits 1).neg = some (-2 ^ (-1074 : ℤ)) := by
    rw [rational?_neg, rational?_least, Option.map_some]
  have hup := h.within hx rational?_least
  have hdown := h.within hx hleastNeg
  generalize (2 : ℚ) ^ (-1074 : ℤ) = unit at *
  rw [zero_sub, abs_neg] at hup hdown
  rcases le_total 0 q with hle | hle
  · rw [abs_of_nonneg hle] at hup ⊢
    rcases le_abs.1 hup with hd | hd <;> linarith
  · rw [abs_of_nonpos hle] at hdown ⊢
    rcases le_abs.1 hdown with hd | hd <;> linarith

theorem IsNearest.eq_zero {q : ℚ} {x : Float} (h : IsNearest q x)
    (hsmall : |q| ≤ 2 ^ (-1074 : ℤ) / 2) : rational? x = some 0 := by
  have hunit : (0 : ℚ) < 2 ^ (-1074 : ℤ) := by positivity
  rw [IsNearest] at h
  rw [rational?]
  cases hparts : ofFloat x with
  | nan => simp [hparts] at h
  | infinite negative =>
      simp only [hparts] at h
      have hroom := rational?_lt_overflow rational?_least
      rw [abs_of_pos hunit] at hroom
      have hq := abs_le.1 hsmall
      cases negative <;> simp [sign] at h <;> linarith
  | finite negative m e =>
      rw [hparts] at h
      have hzero : rational? 0.0 = some 0 := by decide +kernel
      obtain ⟨hle, htie⟩ := h.2 0.0 0 hzero
      by_cases hm : m = 0
      · simp [value?, hm]
      · -- The double would be at least one unit away from zero, and is at most one.
        have hfar {k : ℕ} (hk : k ≤ m) :
            (k : ℚ) * 2 ^ (-1074 : ℤ) ≤ |sign negative * (m * 2 ^ e)| := by
          have hplace : (2 : ℚ) ^ (-1074 : ℤ) ≤ 2 ^ e :=
            zpow_le_zpow_right₀ (by norm_num) (Binary64.ofBits_bounds hparts).2.1
          rw [abs_sign_mul, abs_of_nonneg (by positivity)]
          exact mul_le_mul (by exact_mod_cast hk) hplace hunit.le (by positivity)
        generalize sign negative * ((m : ℚ) * 2 ^ e) = v at hle htie hfar
        generalize (2 : ℚ) ^ (-1074 : ℤ) = unit at *
        have hone := hfar (k := 1) (by omega)
        have hnear := abs_add_le (v - q) q
        rw [sub_add_cancel] at hnear
        rw [zero_sub, abs_neg] at hle htie
        rw [Nat.cast_one, one_mul] at hone
        rcases htie (by linarith) with hv | heven
        · rw [← hv, abs_zero] at hone
          linarith
        · have htwo := hfar (k := 2) (by omega)
          rw [Nat.cast_ofNat] at htwo
          linarith

/-- A number is read as zero when it is no more than half of the smallest double. -/
theorem IsNearest.zero_iff {q : ℚ} {x : Float} (h : IsNearest q x) :
    rational? x = some 0 ↔ |q| ≤ 2 ^ (-1074 : ℤ) / 2 :=
  ⟨h.abs_le_of_zero, h.eq_zero⟩

end Decimal

/-! ## Payloads of one number -/

namespace Payload

theorem readNumbers_spelled {payload : List Char} {q : ℚ} (h : Spelled (trim payload) q) :
    ∃ x, readNumbers payload = .ok [x] ∧ IsNearest q x := by
  obtain ⟨x, hread, hnearest⟩ := readFloat_spelled h
  have hnot {c : Char} (hc : ¬ (c.isDigit = true ∨ c ∈ marks)) : c ∉ trim payload :=
    fun hmem => hc (h.isNumeric c hmem)
  refine ⟨x, ?_, hnearest⟩
  have hbrackets : ¬ ('[' ∈ trim payload ∨ ']' ∈ trim payload) :=
    not_or.2 ⟨hnot (by decide), hnot (by decide)⟩
  have hone : (trim payload).splitOn ',' = [trim payload] :=
    List.splitOn_eq_singleton (hnot (by decide))
  have hnumber : readNumber (trim payload) = .ok x := by
    rw [readNumber, trim_trim, hread]
  simp only [readNumbers, if_neg h.ne_nil, if_neg hbrackets, hone, List.mapM_cons, hnumber]
  rfl

/-- A payload that is read as one finite double spells a number. -/
theorem spelled_of_readNumbers {payload : List Char} {x : Float} {v : ℚ}
    (h : readNumbers payload = .ok [x]) (hx : rational? x = some v) : ∃ q, Spelled (trim payload) q := by
  simp only [readNumbers] at h
  split_ifs at h with hempty hbrackets
  · cases h
  · obtain ⟨token, rest, hread, hrest, htokens⟩ := List.forall₂_cons_left_iff.1 (mapM_eq_ok_iff.1 h)
    obtain rfl := List.forall₂_nil_left_iff.1 hrest
    have hwhole : [','].intercalate ((trim payload).splitOn ',') = trim payload :=
      List.intercalate_splitOn ','
    rw [htokens, List.intercalate_singleton] at hwhole
    rw [hwhole, readNumber, trim_trim] at hread
    cases hfloat : readFloatChars? (trim payload) with
    | none => simp [hfloat] at hread
    | some y =>
        rw [hfloat, Except.ok.injEq] at hread
        exact spelled_of_readFloat (hread ▸ hfloat) hx

end Payload

namespace Reply

variable {reply : Reply}

theorem integer_of_number {x : Float} (h : Payload.readNumbers reply.payload.toList = .ok [x]) :
    reply.integer =
      if isWhole x then .ok (toInt64 x) else .error (.malformed .notWhole reply.line) := by
  rw [integer, vector, numbers, h]
  rfl

theorem integer_of_other (h : ∀ x, Payload.readNumbers reply.payload.toList ≠ .ok [x]) :
    ∃ fault, reply.integer = .error (.malformed fault reply.line) := by
  rw [integer, vector, numbers]
  cases hread : Payload.readNumbers reply.payload.toList with
  | error fault => exact ⟨fault, rfl⟩
  | ok values =>
      match values with
      | [] => exact ⟨.count 1 0, rfl⟩
      | [x] => exact absurd hread (h x)
      | x :: y :: rest => exact ⟨.count 1 (rest.length + 2), rfl⟩

/-- An integer comes from a number that is spelled, and is that of the nearest double. -/
theorem spelled_of_integer {v : ℤ} (h : reply.integer = .ok v) :
    ∃ q x, ∃ n : ℤ, Spelled (trim reply.payload.toList) q ∧ IsNearest q x ∧
      rational? x = some (n : ℚ) ∧ v = int64.clamp n := by
  by_cases hread : ∃ x, Payload.readNumbers reply.payload.toList = .ok [x]
  · obtain ⟨x, hread⟩ := hread
    rw [integer_of_number hread] at h
    split_ifs at h with hwhole
    obtain ⟨n, hn⟩ := isWhole_iff.1 hwhole
    obtain ⟨q, hq⟩ := Payload.spelled_of_readNumbers hread hn
    obtain ⟨y, hy, hnearest⟩ := Payload.readNumbers_spelled hq
    rw [hread, Except.ok.injEq, List.singleton_inj] at hy
    exact ⟨q, x, n, hq, hy ▸ hnearest, hn, (Except.ok.inj h).symm.trans (toInt64_of_whole hn)⟩
  · obtain ⟨fault, hfault⟩ := integer_of_other fun x hx => hread ⟨x, hx⟩
    simp [hfault] at h

theorem integer_of_spelled {q : ℚ} (h : Spelled (trim reply.payload.toList) q) :
    ∃ x, IsNearest q x ∧
      (∀ n : ℤ, rational? x = some (n : ℚ) → reply.integer = .ok (int64.clamp n)) ∧
      ((∀ n : ℤ, rational? x ≠ some (n : ℚ)) →
        reply.integer = .error (.malformed .notWhole reply.line)) := by
  obtain ⟨x, hread, hnearest⟩ := Payload.readNumbers_spelled h
  refine ⟨x, hnearest, fun n hn => ?_, fun hnone => ?_⟩
  · rw [integer_of_number hread, if_pos (isWhole_iff.2 ⟨n, hn⟩), toInt64_of_whole hn]
    rfl
  · rw [integer_of_number hread, if_neg fun hwhole => ?_]
    obtain ⟨n, hn⟩ := isWhole_iff.1 hwhole
    exact hnone n hn

theorem integer_of_unspelled (h : ∀ q, ¬ Spelled (trim reply.payload.toList) q) :
    ∃ fault, reply.integer = .error (.malformed fault reply.line) := by
  by_cases hread : ∃ x, Payload.readNumbers reply.payload.toList = .ok [x]
  · obtain ⟨x, hread⟩ := hread
    refine ⟨.notWhole, ?_⟩
    rw [integer_of_number hread, if_neg fun hwhole => ?_]
    obtain ⟨n, hn⟩ := isWhole_iff.1 hwhole
    obtain ⟨q, hq⟩ := Payload.spelled_of_readNumbers hread hn
    exact h q hq
  · exact integer_of_other fun x hx => hread ⟨x, hx⟩

theorem integer_of_double {n : ℤ} (h : Spelled (trim reply.payload.toList) n) (hn : int64.holds n)
    (hdouble : IsDouble n) : reply.integer = .ok n := by
  obtain ⟨x, hnearest, hwhole, -⟩ := integer_of_spelled h
  obtain ⟨y, hy⟩ := hdouble
  have hclamp : int64.clamp n = n := by
    obtain ⟨hleast, hgreatest⟩ := hn
    rw [Bounds.clamp]
    omega
  rw [hwhole n (hnearest.exact hy), hclamp]

theorem integer_zero_iff : reply.integer = .ok 0 ↔
    ∃ q, Spelled (trim reply.payload.toList) q ∧ |q| ≤ 2 ^ (-1074 : ℤ) / 2 := by
  constructor
  · intro h
    obtain ⟨q, x, n, hq, hnearest, hn, hclamp⟩ := spelled_of_integer h
    have hzero : n = 0 := by
      have hbounds : int64.least = -2 ^ 63 ∧ int64.greatest = 2 ^ 63 - 1 := ⟨rfl, rfl⟩
      rw [Bounds.clamp, hbounds.1, hbounds.2] at hclamp
      omega
    rw [hzero, Int.cast_zero] at hn
    exact ⟨q, hq, hnearest.zero_iff.1 hn⟩
  · rintro ⟨q, hq, hsmall⟩
    obtain ⟨x, hnearest, hwhole, -⟩ := integer_of_spelled hq
    rw [hwhole 0 (by rw [hnearest.zero_iff.2 hsmall, Int.cast_zero])]
    rfl

end Reply

open Telemetry (Frame Snapshot)
open Dashboard (Request)

theorem holds_int64 (n : Int64) : int64.holds n.toInt :=
  ⟨Int64.le_toInt n, Int64.toInt_le n⟩

theorem read_digitalInput_low_iff {reply : Reply} {index : Robot.Index .digitalInput} :
    (Request.digitalInput index).read reply = .ok (.level .low) ↔ reply.integer = .ok 0 := by
  rw [Request.read]
  cases reply.integer with
  | error failure => simp [Except.map]
  | ok n => by_cases hn : n = 0 <;> simp [Except.map, Robot.Level.ofBool, hn]

/-- An integer is read off a reply as that of the double nearest to what the payload spells, stopped
at the ends of the range. If this double is no integer, or if the payload spells no number, it is an
error that names the reply. An integer that is a double comes out unchanged, so the dashboard and a
frame agree on a mode, and nothing is mistaken for an integer of up to 53 bits from which it
is more than a half away. A line is low when the number is no more than half of the smallest
double. -/
theorem Reply.integer_is_nearest (reply : Reply) :
    (∀ q, Spelled (trim reply.payload.toList) q → ∃ x, IsNearest q x ∧
      (∀ n : ℤ, rational? x = some (n : ℚ) → reply.integer = .ok (int64.clamp n)) ∧
      ((∀ n : ℤ, rational? x ≠ some (n : ℚ)) →
        reply.integer = .error (.malformed .notWhole reply.line))) ∧
    ((∀ q, ¬ Spelled (trim reply.payload.toList) q) →
      ∃ fault, reply.integer = .error (.malformed fault reply.line)) ∧
    (∀ n : ℤ, Spelled (trim reply.payload.toList) n → int64.holds n →
      n.natAbs ≤ 2 ^ 53 ∨ IsDouble n → reply.integer = .ok n) ∧
    (∀ n : ℤ, reply.integer = .ok n → n.natAbs < 2 ^ 53 →
      ∃ q, Spelled (trim reply.payload.toList) q ∧ |q - n| ≤ 1 / 2) ∧
    (∀ frame : Frame, Spelled (trim reply.payload.toList) frame.mode.toInt64.toInt →
      IsDouble frame.mode.toInt64.toInt → ∃ mode,
        Request.robotMode.read reply = .ok (.mode mode) ∧
        (Snapshot.ofFrame frame).mode = some mode) ∧
    ∀ index, (Request.digitalInput index).read reply = .ok (.level .low) ↔
      ∃ q, Spelled (trim reply.payload.toList) q ∧ |q| ≤ 2 ^ (-1074 : ℤ) / 2 := by
  refine ⟨fun q => integer_of_spelled, integer_of_unspelled, fun n hspelled hn hdouble => ?_,
    fun n h hn => ?_, fun frame hspelled hdouble => ?_, fun index => ?_⟩
  · exact integer_of_double hspelled hn (hdouble.elim isDouble_integer id)
  · obtain ⟨q, x, k, hq, hnearest, hk, hclamp⟩ := spelled_of_integer h
    have hsame : n = k := by
      have hbounds : int64.least = -2 ^ 63 ∧ int64.greatest = 2 ^ 63 - 1 := ⟨rfl, rfl⟩
      rw [Bounds.clamp, hbounds.1, hbounds.2] at hclamp
      omega
    exact ⟨q, hq, hnearest.near_integer (hsame ▸ hk) hn⟩
  · refine ⟨.ofRaw frame.mode.toInt64.toInt, ?_, rfl⟩
    rw [Request.read, integer_of_double hspelled (holds_int64 _) hdouble]
    rfl
  · rw [read_digitalInput_low_iff, integer_zero_iff]

/-- The number five, written with a point and an exponent, is the mode five of a frame; without any
payload there is no mode. -/
theorem Reply.integer_is_nearest_five :
    let five : Reply := ⟨0, "0.5e1", "RobotMode()", "0,\x7b0.5e1\x7d,RobotMode();"⟩
    let nothing : Reply := ⟨0, "", "RobotMode()", "0,\x7b\x7d,RobotMode();"⟩
    five.integer = .ok 5 ∧
      (∃ mode, Request.robotMode.read five = .ok (.mode mode) ∧
        (Snapshot.ofFrame (.inMode 5)).mode = some mode) ∧
      ∃ fault, nothing.integer = .error (.malformed fault nothing.line) := by
  intro five nothing
  have hspelled : Spelled (trim five.payload.toList) (5 : ℤ) := by
    have hdigits : Pointed (['0'] ++ '.' :: ['5']) 5 1 := .point (by decide)
    have hscale : Scale ['e', '1'] 1 := .power (.inl rfl) (.plain (by decide : Figures ['1'] 1))
    have hplain := Spelled.plain (.intro hdigits hscale)
    have hvalue : (Written.mk 5 (1 - (1 : ℕ))).value = (5 : ℤ) := by norm_num [Written.value]
    have htrim : trim five.payload.toList = ['0', '.', '5', 'e', '1'] := by decide +kernel
    rw [hvalue] at hplain
    rw [htrim]
    exact hplain
  have hnothing : ∀ q, ¬ Spelled (trim nothing.payload.toList) q := fun q h => h.ne_nil (by decide)
  obtain ⟨-, -, hwhole, -, hmode, -⟩ := integer_is_nearest five
  obtain ⟨-, hother, -⟩ := integer_is_nearest nothing
  exact ⟨hwhole 5 hspelled (by decide) (.inl (by decide)),
    hmode (.inMode 5) hspelled (isDouble_integer (by decide)), hother hnothing⟩

/-- The least integer that is no double comes out as the one below it. -/
theorem Reply.integer_drops_last_digit :
    ∃ reply, Reply.parse "0,\x7b9007199254740993\x7d,RobotMode();" = .ok reply ∧
      Spelled (trim reply.payload.toList) (9007199254740993 : ℤ) ∧
      reply.integer = .ok 9007199254740992 := by
  refine ⟨⟨0, "9007199254740993", "RobotMode()", "0,\x7b9007199254740993\x7d,RobotMode();"⟩, ?_, ?_, ?_⟩
  · decide +kernel
  · have htrim : trim "9007199254740993".toList = "9007199254740993".toList := by decide +kernel
    rw [htrim]
    exact spelled_numeral (.plain (by decide +kernel : Figures _ 9007199254740993))
  · decide +kernel

end ArmLink
