import ArmLink.Proofs.Differences
import ArmLink.Robot.Pose

/-!
# Orientations as turns about fixed axes

The orientation of a pose is three turns, each about an axis that stays where it is: roll
about the first, then pitch about the second, then yaw about the third. A turn is a
quaternion made of the sine and the cosine of half its angle, the turns that come later
stand on the left of the product, and the four numbers of a pose are what the product
comes to. That is an identity between polynomials, so it holds in any commutative ring and
needs nothing of the sines and cosines. What a quaternion does to a vector needs one thing:
that their squares add up to one (`about_mul_ofParts`). It then takes the vector around the
axis by the whole angle, and three turns in a row are what their product does.

With doubles each product and each sum is rounded. None of them is larger than two, so each
rounding is bounded by a fixed number (`IsNearest.rounds_within`), and the errors of the
four products and the one sum behind each of the four numbers add up.
-/

namespace ArmLink

open scoped Matrix Quaternion

/-! ## Roundings of small numbers -/

namespace Decimal

/-- The double is a number no larger than this power of two and within `error` of another number. -/
def Approximates (k : ℤ) (error q : ℝ) (x : Float) : Prop :=
  ∃ v, rational? x = some v ∧ |v| ≤ 2 ^ k ∧ |(v : ℝ) - q| ≤ error

section

variable {r : ℚ} {k : ℤ}

theorem pow_mul_place (k : ℤ) : (2 : ℚ) ^ 53 * 2 ^ (k - 53) = 2 ^ k := by
  rw [← zpow_natCast, ← zpow_add₀ (by norm_num)]
  congr 1
  omega

theorem exists_power (hlow : -1021 ≤ k) (hhigh : k ≤ 1023) : ∃ x, rational? x = some (2 ^ k) := by
  obtain ⟨x, hx⟩ := exists_double (n := 2 ^ 53) (e := k - 53) (by norm_num) (by omega) (by omega)
  rw [Int.cast_pow, Int.cast_ofNat, pow_mul_place] at hx
  exact ⟨x, hx⟩

/-- Up to a power of two the doubles are as close as 53 bits make them. -/
theorem exists_near (hlow : -1021 ≤ k) (hhigh : k ≤ 1023) (hr : |r| ≤ 2 ^ k) :
    ∃ x v, rational? x = some v ∧ |v - r| ≤ 2 ^ (k - 54) := by
  have hunit : (0 : ℚ) < 2 ^ (k - 53) := by positivity
  have hplaces : r / 2 ^ (k - 53) * 2 ^ (k - 53) = r := div_mul_cancel₀ r hunit.ne'
  have hsize : |r / 2 ^ (k - 53)| ≤ 2 ^ 53 := by
    rwa [abs_div, abs_of_pos hunit, div_le_iff₀ hunit, pow_mul_place]
  generalize r / 2 ^ (k - 53) = places at hplaces hsize
  have hround := abs_sub_round places
  rw [abs_sub_comm] at hround
  have hroom : |round places| ≤ 2 ^ 53 := by
    have hsum := abs_sub_abs_le_abs_sub (round places : ℚ) places
    have hlt : |(round places : ℚ)| < 2 ^ 53 + 1 := by linarith
    exact Int.lt_add_one_iff.1 (by exact_mod_cast hlt)
  obtain ⟨x, hx⟩ := exists_double (e := k - 53) hroom (by omega) (by omega)
  refine ⟨x, _, hx, ?_⟩
  calc |round places * 2 ^ (k - 53) - r| = |round places - places| * 2 ^ (k - 53) := by
        rw [← hplaces, ← sub_mul, abs_mul, abs_of_pos hunit]
    _ ≤ 1 / 2 * 2 ^ (k - 53) := mul_le_mul_of_nonneg_right hround hunit.le
    _ = 2 ^ (k - 54) := by
        rw [show k - 53 = k - 54 + 1 by omega, zpow_add₀ (by norm_num)]
        ring

theorem IsNearest.rounds_within {x : Float} (h : IsNearest r x) (hlow : -1021 ≤ k)
    (hhigh : k ≤ 1023) (hr : |r| ≤ 2 ^ k) :
    ∃ v, rational? x = some v ∧ |v| ≤ 2 ^ k ∧ |v - r| ≤ 2 ^ (k - 54) := by
  obtain ⟨top, htop⟩ := exists_power hlow hhigh
  have hbottom : rational? top.neg = some (-2 ^ k) := by rw [rational?_neg, htop, Option.map_some]
  obtain ⟨near, w, hw, hnear⟩ := exists_near hlow hhigh hr
  obtain ⟨v, hv⟩ := h.finite_of_lt
    (hr.trans_lt ((le_abs_self _).trans_lt (rational?_lt_overflow htop)))
  obtain ⟨hback, hahead⟩ := abs_le.1 hr
  exact ⟨v, hv, abs_le.2 ⟨h.ge_of_ge hv hbottom hback, h.le_of_le hv htop hahead⟩,
    (h.within hv hw).trans hnear⟩

end

namespace Approximates

variable {error error' p q : ℝ} {x y : Float}

/-- One rounding more adds half of the last place. -/
theorem of_isNearest {r : ℚ} {k : ℤ} (h : IsNearest r x) (hlow : -1021 ≤ k) (hhigh : k ≤ 1023)
    (hr : |r| ≤ 2 ^ k) (hq : |(r : ℝ) - q| ≤ error) : Approximates k (error + 2 ^ (k - 54)) q x := by
  obtain ⟨v, hv, hsize, hnear⟩ := h.rounds_within hlow hhigh hr
  have hrounded : |(v : ℝ) - r| ≤ 2 ^ (k - 54) := by
    have hcast := Rat.cast_le (K := ℝ).2 hnear
    push_cast at hcast
    exact hcast
  refine ⟨v, hv, hsize, ?_⟩
  have hsum := abs_sub_le (v : ℝ) r q
  linarith

theorem mul (hx : Approximates 0 error p x) (hy : Approximates 0 error' q y) (hq : |q| ≤ 1) :
    Approximates 0 (error + error' + 1 / 2 ^ 54) (p * q) (x * y) := by
  obtain ⟨v, hv, hvsize, hvnear⟩ := hx
  obtain ⟨w, hw, hwsize, hwnear⟩ := hy
  rw [zpow_zero] at hvsize hwsize
  have hvreal : |(v : ℝ)| ≤ 1 := by exact_mod_cast hvsize
  have hproduct : |v * w| ≤ 2 ^ (0 : ℤ) := by
    rw [abs_mul, zpow_zero]
    exact mul_le_one₀ hvsize (abs_nonneg w) hwsize
  have hsplit : ((v * w : ℚ) : ℝ) - p * q = (v - p) * q + v * (w - q) := by
    push_cast
    ring
  have hclose : |((v * w : ℚ) : ℝ) - p * q| ≤ error + error' := by
    rw [hsplit]
    refine (abs_add_le _ _).trans (add_le_add ?_ ?_) <;> rw [abs_mul]
    · exact (mul_le_of_le_one_right (abs_nonneg _) hq).trans hvnear
    · exact (mul_le_of_le_one_left (abs_nonneg _) hvreal).trans hwnear
  have hlast : (2 : ℝ) ^ (0 - 54 : ℤ) = 1 / 2 ^ 54 := by norm_num
  rw [← hlast]
  exact of_isNearest (isNearest_mul hv hw) (by decide) (by decide) hproduct hclose

theorem mul_mul {r : ℝ} {z : Float} (hx : Approximates 0 error p x) (hy : Approximates 0 error q y)
    (hz : Approximates 0 error r z) (hq : |q| ≤ 1) (hr : |r| ≤ 1) :
    Approximates 0 (3 * error + 1 / 2 ^ 53) (p * q * r) (x * y * z) := by
  have hsum : error + error + 1 / 2 ^ 54 + error + 1 / 2 ^ 54 = 3 * error + 1 / 2 ^ 53 := by ring
  rw [← hsum]
  exact (hx.mul hy hq).mul hz hr

/-- Two numbers are put together, the second with a sign, and the outcome is rounded. -/
theorem join {z : Float} (hx : Approximates 0 error p x) (hy : Approximates 0 error q y) {s : ℚ}
    (hs : |s| = 1) (hjoin : ∀ v w, rational? x = some v → rational? y = some w →
      IsNearest (v + s * w) z) :
    Approximates 1 (2 * error + 1 / 2 ^ 53) (p + s * q) z := by
  obtain ⟨v, hv, hvsize, hvnear⟩ := hx
  obtain ⟨w, hw, hwsize, hwnear⟩ := hy
  rw [zpow_zero] at hvsize hwsize
  have hsreal : |(s : ℝ)| = 1 := by exact_mod_cast hs
  have hsize : |v + s * w| ≤ 2 ^ (1 : ℤ) := by
    calc |v + s * w| ≤ |v| + |s * w| := abs_add_le _ _
      _ = |v| + |w| := by rw [abs_mul, hs, one_mul]
      _ ≤ 2 ^ (1 : ℤ) := by
          rw [zpow_one]
          linarith
  have hsplit : ((v + s * w : ℚ) : ℝ) - (p + s * q) = (v - p) + s * (w - q) := by
    push_cast
    ring
  have hclose : |((v + s * w : ℚ) : ℝ) - (p + s * q)| ≤ 2 * error := by
    calc |((v + s * w : ℚ) : ℝ) - (p + s * q)| ≤ |(v : ℝ) - p| + |(s : ℝ) * (w - q)| := by
          rw [hsplit]
          exact abs_add_le _ _
      _ = |(v : ℝ) - p| + |(w : ℝ) - q| := by rw [abs_mul, hsreal, one_mul]
      _ ≤ 2 * error := by linarith
  have hlast : (2 : ℝ) ^ (1 - 54 : ℤ) = 1 / 2 ^ 53 := by norm_num
  rw [← hlast]
  exact of_isNearest (hjoin v w hv hw) (by decide) (by decide) hsize hclose

theorem add (hx : Approximates 0 error p x) (hy : Approximates 0 error q y) :
    Approximates 1 (2 * error + 1 / 2 ^ 53) (p + q) (x + y) := by
  have h := join hx hy (s := 1) (by norm_num) fun v w hv hw => by
    rw [one_mul]
    exact isNearest_add hv hw
  rwa [Rat.cast_one, one_mul] at h

theorem sub (hx : Approximates 0 error p x) (hy : Approximates 0 error q y) :
    Approximates 1 (2 * error + 1 / 2 ^ 53) (p - q) (x - y) := by
  have h := join hx hy (s := -1) (by norm_num) fun v w hv hw => by
    rw [neg_one_mul, ← sub_eq_add_neg]
    exact isNearest_sub hv hw
  rwa [Rat.cast_neg, Rat.cast_one, neg_one_mul, ← sub_eq_add_neg] at h

end Approximates

end Decimal

namespace Robot

open Decimal (Approximates rational?)

/-! ## Turns as quaternions -/

section

variable {R : Type} [CommRing R]

/-- The axes that stay where they are. -/
def fixedAxis (i : Fin 3) : Fin 3 → R :=
  Pi.single i 1

/-- The quaternion of a scalar and a vector. -/
def ofParts (scalar : R) (v : Fin 3 → R) : ℍ[R] :=
  ⟨scalar, v 0, v 1, v 2⟩

@[simp] theorem re_ofParts (scalar : R) (v : Fin 3 → R) : (ofParts scalar v).re = scalar := rfl

@[simp] theorem imI_ofParts (scalar : R) (v : Fin 3 → R) : (ofParts scalar v).imI = v 0 := rfl

@[simp] theorem imJ_ofParts (scalar : R) (v : Fin 3 → R) : (ofParts scalar v).imJ = v 1 := rfl

@[simp] theorem imK_ofParts (scalar : R) (v : Fin 3 → R) : (ofParts scalar v).imK = v 2 := rfl

/-- The quaternion as a number that can be multiplied. -/
def Quaternion.toParts (q : Quaternion R) : ℍ[R] :=
  ofParts q.w ![q.x, q.y, q.z]

namespace HalfAngle

/-- The two numbers are the sine and the cosine of one angle. -/
def OnCircle (half : HalfAngle R) : Prop :=
  half.sine ^ 2 + half.cosine ^ 2 = 1

/-- The turn about an axis. -/
def about (axis : Fin 3 → R) (half : HalfAngle R) : ℍ[R] :=
  ofParts half.cosine (half.sine • axis)

/-- A vector taken around a unit axis by the whole angle: what points along the axis stays, and the
rest moves on in its plane. -/
def turned (axis : Fin 3 → R) (half : HalfAngle R) (v : Fin 3 → R) : Fin 3 → R :=
  let sine := 2 * half.sine * half.cosine
  let cosine := half.cosine ^ 2 - half.sine ^ 2
  cosine • v + sine • axis ⨯₃ v + ((1 - cosine) * axis ⬝ᵥ v) • axis

end HalfAngle

theorem dotProduct_fixedAxis (i : Fin 3) : (fixedAxis i : Fin 3 → R) ⬝ᵥ fixedAxis i = 1 := by
  simp [fixedAxis]

variable {half : HalfAngle R} {axis : Fin 3 → R}

theorem normSq_about (hhalf : half.OnCircle) (haxis : axis ⬝ᵥ axis = 1) :
    Quaternion.normSq (half.about axis) = 1 := by
  rw [HalfAngle.OnCircle] at hhalf
  rw [Matrix.vec3_dotProduct] at haxis
  simp only [Quaternion.normSq_def', HalfAngle.about, re_ofParts, imI_ofParts, imJ_ofParts,
    imK_ofParts, Pi.smul_apply, smul_eq_mul]
  linear_combination half.sine ^ 2 * haxis + hhalf

/-- Between a turn and its reverse a vector is taken around the axis. -/
theorem about_mul_ofParts (hhalf : half.OnCircle) (haxis : axis ⬝ᵥ axis = 1) (v : Fin 3 → R) :
    half.about axis * ofParts 0 v * star (half.about axis) = ofParts 0 (half.turned axis v) := by
  rw [HalfAngle.OnCircle] at hhalf
  rw [Matrix.vec3_dotProduct] at haxis
  ext <;>
    simp only [HalfAngle.about, HalfAngle.turned, Quaternion.re_mul, Quaternion.imI_mul,
      Quaternion.imJ_mul, Quaternion.imK_mul, Quaternion.re_star, Quaternion.imI_star,
      Quaternion.imJ_star, Quaternion.imK_star, re_ofParts, imI_ofParts, imJ_ofParts, imK_ofParts,
      cross_apply, Matrix.vec3_dotProduct, Pi.add_apply, Pi.smul_apply, smul_eq_mul, Matrix.cons_val]
  -- What lies across the axis keeps its size because the axis is a unit, and what lies along it stays
  -- where it is because the half angle is on the circle.
  · ring
  · linear_combination (-(half.sine ^ 2 * v 0)) * haxis +
      (axis 0 * v 0 + axis 1 * v 1 + axis 2 * v 2) * axis 0 * hhalf
  · linear_combination (-(half.sine ^ 2 * v 1)) * haxis +
      (axis 0 * v 0 + axis 1 * v 1 + axis 2 * v 2) * axis 1 * hhalf
  · linear_combination (-(half.sine ^ 2 * v 2)) * haxis +
      (axis 0 * v 0 + axis 1 * v 1 + axis 2 * v 2) * axis 2 * hhalf

/-- Of two turns in a row the later one stands on the left. -/
theorem mul_turns {a b : ℍ[R]} {u v w : Fin 3 → R} (hb : b * ofParts 0 u * star b = ofParts 0 v)
    (ha : a * ofParts 0 v * star a = ofParts 0 w) :
    a * b * ofParts 0 u * star (a * b) = ofParts 0 w := by
  calc a * b * ofParts 0 u * star (a * b) = a * (b * ofParts 0 u * star b) * star a := by
        rw [star_mul]
        simp only [mul_assoc]
    _ = ofParts 0 w := by rw [hb, ha]

theorem toParts_ofHalfAngles (roll pitch yaw : HalfAngle R) :
    (Quaternion.ofHalfAngles roll pitch yaw).toParts =
      yaw.about (fixedAxis 2) * pitch.about (fixedAxis 1) * roll.about (fixedAxis 0) := by
  ext <;>
    simp [Quaternion.toParts, Quaternion.ofHalfAngles, HalfAngle.about, fixedAxis] <;>
    ring

end

namespace HalfAngle

/-! ## Angles -/

/-- The half of an angle. -/
noncomputable def ofAngle (angle : ℝ) : HalfAngle ℝ :=
  ⟨Real.sin (angle / 2), Real.cos (angle / 2)⟩

theorem onCircle_ofAngle (angle : ℝ) : (ofAngle angle).OnCircle :=
  Real.sin_sq_add_cos_sq (angle / 2)

theorem turned_ofAngle (axis : Fin 3 → ℝ) (angle : ℝ) (v : Fin 3 → ℝ) :
    (ofAngle angle).turned axis v = Real.cos angle • v + Real.sin angle • axis ⨯₃ v +
      ((1 - Real.cos angle) * axis ⬝ᵥ v) • axis := by
  have hwhole : angle = 2 * (angle / 2) := by ring
  have hsine : Real.sin angle = 2 * (ofAngle angle).sine * (ofAngle angle).cosine := by
    rw [hwhole, Real.sin_two_mul, ← hwhole]
    rfl
  have hcosine : Real.cos angle = (ofAngle angle).cosine ^ 2 - (ofAngle angle).sine ^ 2 := by
    rw [hwhole, Real.cos_two_mul', ← hwhole]
    rfl
  rw [hsine, hcosine, turned]

/-! ## The turns of doubles -/

/-- The doubles are no larger than one, and within `error` of a sine and a cosine. -/
structure Near (half : HalfAngle Float) (error : ℝ) (exact : HalfAngle ℝ) : Prop where
  sine : Approximates 0 error exact.sine half.sine
  cosine : Approximates 0 error exact.cosine half.cosine

theorem OnCircle.abs_sine_le {half : HalfAngle ℝ} (h : half.OnCircle) : |half.sine| ≤ 1 := by
  rw [OnCircle] at h
  exact (sq_le_one_iff_abs_le_one _).1 (by linarith [sq_nonneg half.cosine])

theorem OnCircle.abs_cosine_le {half : HalfAngle ℝ} (h : half.OnCircle) : |half.cosine| ≤ 1 := by
  rw [OnCircle] at h
  exact (sq_le_one_iff_abs_le_one _).1 (by linarith [sq_nonneg half.sine])

end HalfAngle

theorem approximates_ofHalfAngles {error : ℝ} {roll pitch yaw : HalfAngle Float}
    {exactRoll exactPitch exactYaw : HalfAngle ℝ} (hpitch : exactPitch.OnCircle)
    (hyaw : exactYaw.OnCircle) (hroll : roll.Near error exactRoll)
    (hpitch' : pitch.Near error exactPitch) (hyaw' : yaw.Near error exactYaw) :
    List.Forall₂ (Approximates 1 (6 * error + 3 / 2 ^ 53))
      (Quaternion.ofHalfAngles exactRoll exactPitch exactYaw).toList
      (Quaternion.ofHalfAngles roll pitch yaw).toList := by
  have hsum : 2 * (3 * error + 1 / 2 ^ 53) + 1 / 2 ^ 53 = 6 * error + 3 / 2 ^ 53 := by ring
  have hps := hpitch.abs_sine_le
  have hpc := hpitch.abs_cosine_le
  have hys := hyaw.abs_sine_le
  have hyc := hyaw.abs_cosine_le
  rw [← hsum]
  refine .cons ?_ (.cons ?_ (.cons ?_ (.cons ?_ .nil)))
  · exact (hroll.sine.mul_mul hpitch'.cosine hyaw'.cosine hpc hyc).sub
      (hroll.cosine.mul_mul hpitch'.sine hyaw'.sine hps hys)
  · exact (hroll.cosine.mul_mul hpitch'.sine hyaw'.cosine hps hyc).add
      (hroll.sine.mul_mul hpitch'.cosine hyaw'.sine hpc hys)
  · exact (hroll.cosine.mul_mul hpitch'.cosine hyaw'.sine hpc hys).sub
      (hroll.sine.mul_mul hpitch'.sine hyaw'.cosine hps hyc)
  · exact (hroll.cosine.mul_mul hpitch'.cosine hyaw'.cosine hpc hyc).add
      (hroll.sine.mul_mul hpitch'.sine hyaw'.sine hps hys)

/-! ## The quaternion of a pose -/

/-- The four numbers of a pose are the product of its three turns, the scalar last, in any numbers
that can be added, taken away and multiplied as usual. For sines and cosines their squares add up
to one, and the product takes a vector around the first axis by roll, then around the second by
pitch, then around the third by yaw; the sine and the cosine of half of any angle do so by the
angle. From doubles within `error` of sines and cosines each of the four numbers comes out within
`6 * error + 3 / 2 ^ 53` of the exact one. -/
theorem quaternion_turns_about_fixed_axes :
    (∀ {R : Type} [CommRing R] (roll pitch yaw : HalfAngle R),
      let q := Quaternion.ofHalfAngles roll pitch yaw
      let product := yaw.about (fixedAxis 2) * pitch.about (fixedAxis 1) * roll.about (fixedAxis 0)
      q.toList = [product.imI, product.imJ, product.imK, product.re] ∧
      (roll.OnCircle → pitch.OnCircle → yaw.OnCircle →
        q.x ^ 2 + q.y ^ 2 + q.z ^ 2 + q.w ^ 2 = 1 ∧
        ∀ v, product * ofParts 0 v * star product = ofParts 0
          (yaw.turned (fixedAxis 2) (pitch.turned (fixedAxis 1) (roll.turned (fixedAxis 0) v))))) ∧
    (∀ angle : ℝ, (HalfAngle.ofAngle angle).OnCircle ∧ ∀ axis v,
      (HalfAngle.ofAngle angle).turned axis v = Real.cos angle • v + Real.sin angle • axis ⨯₃ v +
        ((1 - Real.cos angle) * axis ⬝ᵥ v) • axis) ∧
    (∀ pose : Pose, pose.quaternion = .ofHalfAngles (.of pose.roll) (.of pose.pitch) (.of pose.yaw)) ∧
    ∀ (error : ℝ) (roll pitch yaw : HalfAngle Float) (exactRoll exactPitch exactYaw : HalfAngle ℝ),
      exactPitch.OnCircle → exactYaw.OnCircle → roll.Near error exactRoll →
      pitch.Near error exactPitch → yaw.Near error exactYaw →
      List.Forall₂ (Approximates 1 (6 * error + 3 / 2 ^ 53))
        (Quaternion.ofHalfAngles exactRoll exactPitch exactYaw).toList
        (Quaternion.ofHalfAngles roll pitch yaw).toList := by
  refine ⟨?_, fun angle => ⟨HalfAngle.onCircle_ofAngle angle,
    fun axis v => HalfAngle.turned_ofAngle axis angle v⟩, fun _ => rfl,
    fun _ _ _ _ _ _ _ hpitch hyaw => approximates_ofHalfAngles hpitch hyaw⟩
  intro R _ roll pitch yaw q product
  have hproduct : q.toParts = product := toParts_ofHalfAngles roll pitch yaw
  refine ⟨?_, fun hroll hpitch hyaw => ⟨?_, fun v => ?_⟩⟩
  · rw [← hproduct]
    rfl
  · have hunit : Quaternion.normSq product = 1 := by
      rw [map_mul, map_mul, normSq_about hyaw (dotProduct_fixedAxis 2),
        normSq_about hpitch (dotProduct_fixedAxis 1), normSq_about hroll (dotProduct_fixedAxis 0),
        one_mul, one_mul]
    rw [← hproduct, Quaternion.normSq_def'] at hunit
    calc q.x ^ 2 + q.y ^ 2 + q.z ^ 2 + q.w ^ 2 = q.w ^ 2 + q.x ^ 2 + q.y ^ 2 + q.z ^ 2 := by ring
      _ = 1 := hunit
  · have hfirst := about_mul_ofParts hroll (dotProduct_fixedAxis 0) v
    have hsecond := about_mul_ofParts hpitch (dotProduct_fixedAxis 1) (roll.turned (fixedAxis 0) v)
    exact mul_turns hfirst (mul_turns hsecond (about_mul_ofParts hyaw (dotProduct_fixedAxis 2) _))

/-- Three turns none of which is zero, exactly and in doubles. -/
theorem quaternion_turns_about_fixed_axes_decimal :
    let roll : HalfAngle ℚ := ⟨3 / 5, 4 / 5⟩
    let pitch : HalfAngle ℚ := ⟨7 / 25, 24 / 25⟩
    let yaw : HalfAngle ℚ := ⟨-4 / 5, 3 / 5⟩
    let q := Quaternion.ofHalfAngles roll pitch yaw
    let product := yaw.about (fixedAxis 2) * pitch.about (fixedAxis 1) * roll.about (fixedAxis 0)
    q.toList = [328 / 625, -204 / 625, -447 / 625, 204 / 625] ∧
      q.toList = [product.imI, product.imJ, product.imK, product.re] ∧
      q.x ^ 2 + q.y ^ 2 + q.z ^ 2 + q.w ^ 2 = 1 ∧
      product * ofParts 0 ![1, 0, 0] * star product =
        ofParts 0 ![-3689 / 15625, -12648 / 15625, -336 / 625] ∧
      List.Forall₂ (Approximates 1 (9 / 2 ^ 53)) [328 / 625, -204 / 625, -447 / 625, 204 / 625]
        (Quaternion.ofHalfAngles ⟨0.6, 0.8⟩ ⟨0.28, 0.96⟩ ⟨-0.8, 0.6⟩).toList := by
  intro roll pitch yaw q product
  obtain ⟨hexact, -, -, hdoubles⟩ := quaternion_turns_about_fixed_axes
  obtain ⟨hlist, hcircle⟩ := hexact roll pitch yaw
  obtain ⟨hunit, hturns⟩ := hcircle (by norm_num [HalfAngle.OnCircle, roll])
    (by norm_num [HalfAngle.OnCircle, pitch]) (by norm_num [HalfAngle.OnCircle, yaw])
  have hnear {x : Float} {v : ℚ} {r : ℝ} (hx : rational? x = some v) (hsize : |v| ≤ 1)
      (hv : |(v : ℝ) - r| ≤ 1 / 2 ^ 53) : Approximates 0 (1 / 2 ^ 53) r x :=
    ⟨v, hx, by rwa [zpow_zero], hv⟩
  have hthree : Approximates 0 (1 / 2 ^ 53) (3 / 5) 0.6 :=
    hnear (v := 5404319552844595 / 2 ^ 53) (by decide +kernel) (by norm_num [abs_le])
      (by norm_num [abs_le])
  have hfour : Approximates 0 (1 / 2 ^ 53) (4 / 5) 0.8 :=
    hnear (v := 3602879701896397 / 2 ^ 52) (by decide +kernel) (by norm_num [abs_le])
      (by norm_num [abs_le])
  have hback : Approximates 0 (1 / 2 ^ 53) (-4 / 5) (-0.8) :=
    hnear (v := -3602879701896397 / 2 ^ 52) (by decide +kernel) (by norm_num [abs_le])
      (by norm_num [abs_le])
  have hseven : Approximates 0 (1 / 2 ^ 53) (7 / 25) 0.28 :=
    hnear (v := 1261007895663739 / 2 ^ 52) (by decide +kernel) (by norm_num [abs_le])
      (by norm_num [abs_le])
  have hrest : Approximates 0 (1 / 2 ^ 53) (24 / 25) 0.96 :=
    hnear (v := 1080863910568919 / 2 ^ 50) (by decide +kernel) (by norm_num [abs_le])
      (by norm_num [abs_le])
  have hclose := hdoubles (1 / 2 ^ 53) ⟨0.6, 0.8⟩ ⟨0.28, 0.96⟩ ⟨-0.8, 0.6⟩ ⟨3 / 5, 4 / 5⟩
    ⟨7 / 25, 24 / 25⟩ ⟨-4 / 5, 3 / 5⟩ (by norm_num [HalfAngle.OnCircle])
    (by norm_num [HalfAngle.OnCircle]) ⟨hthree, hfour⟩ ⟨hseven, hrest⟩ ⟨hback, hthree⟩
  refine ⟨?_, hlist, hunit, ?_, ?_⟩
  · norm_num [q, Quaternion.ofHalfAngles, Quaternion.toList, roll, pitch, yaw]
  · rw [hturns]
    exact congrArg (ofParts 0) (funext (by decide +kernel))
  · have herror : (6 * (1 / 2 ^ 53) + 3 / 2 ^ 53 : ℝ) = 9 / 2 ^ 53 := by norm_num
    have hlisted : (Quaternion.ofHalfAngles (⟨3 / 5, 4 / 5⟩ : HalfAngle ℝ) ⟨7 / 25, 24 / 25⟩
        ⟨-4 / 5, 3 / 5⟩).toList = [328 / 625, -204 / 625, -447 / 625, 204 / 625] := by
      norm_num [Quaternion.ofHalfAngles, Quaternion.toList]
    rwa [herror, hlisted] at hclose

end Robot

end ArmLink
