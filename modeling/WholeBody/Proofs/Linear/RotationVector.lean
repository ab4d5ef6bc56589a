import Mathlib
import WholeBody.Proofs.Linear.Quaternion

/-!
# Rotation vectors

A rotation vector of length `θ` turns by the angle `θ`, and its unit quaternion has the half of that
angle in it: its scalar part is `cos (θ / 2)` and its vector part has the length `|sin (θ / 2)|`. The
logarithm takes the half angle back from these two lengths.

## Main statements

* `Quaternion.toHamilton_exp` — the quaternion of a rotation vector is the exponential of its half,
  among Hamilton's quaternions.
* `Quaternion.norm_log`, `Quaternion.exp_log` — the logarithm of a quaternion that turns by at most
  a half turn.
* `Quaternion.log_exp` — a rotation vector shorter than a full turn is read back.
* `Quaternion.log_conj`, `Quaternion.log_mul_mul_conj` — the logarithm of the way back, and of a
  rotation seen from another frame.
-/

open scoped Quaternion

namespace WholeBody

namespace Quaternion

variable {p q g : Quaternion ℝ} {v : Vec3 ℝ}

/-! ### The exponential -/

/-- The exponential, without a case for the vector zero. -/
theorem exp_eq (v : Vec3 ℝ) :
    exp v = ofParts (Real.cos (v.norm / 2)) ((Real.sinc (v.norm / 2) / 2) • v) := by
  have hhalf : v.divide (Scalar.double 1) = (1 / 2 : ℝ) • v := by
    rw [Vec3.divide_eq_smul, Scalar.double_real, mul_one, one_div]
  have hnorm : ((1 / 2 : ℝ) • v).norm = v.norm / 2 := by
    rw [Vec3.norm_smul, abs_of_pos one_half_pos]
    ring
  simp only [exp, hhalf, hnorm]
  split
  · rename_i hle
    have hzero : v.norm / 2 = 0 := le_antisymm hle (div_nonneg v.norm_nonneg two_pos.le)
    have hv : v = 0 := Vec3.norm_eq_zero_iff.1 (by linarith)
    rw [hzero, Real.cos_zero, hv, Vec3.smul_zero]
    rfl
  · rename_i hpos
    have hne : v.norm / 2 ≠ 0 := (not_le.1 hpos).ne'
    rw [Real.sinc_of_ne_zero hne, Vec3.smul_smul, Scalar.sin_real, Scalar.cos_real]
    congr 2
    ring

@[simp] theorem w_exp (v : Vec3 ℝ) : (exp v).w = Real.cos (v.norm / 2) := by
  rw [exp_eq]
  rfl

theorem vector_exp (v : Vec3 ℝ) : (exp v).vector = (Real.sinc (v.norm / 2) / 2) • v := by
  rw [exp_eq, vector_ofParts]

theorem sinc_mul_self (x : ℝ) : Real.sinc x * x = Real.sin x := by
  by_cases hx : x = 0
  · rw [hx, mul_zero, Real.sin_zero]
  · rw [Real.sinc_of_ne_zero hx, div_mul_cancel₀ _ hx]

theorem norm_vector_exp (v : Vec3 ℝ) : (exp v).vector.norm = |Real.sin (v.norm / 2)| := by
  rw [vector_exp, Vec3.norm_smul, ← sinc_mul_self, abs_mul, abs_div, abs_two,
    abs_of_nonneg (div_nonneg v.norm_nonneg two_pos.le)]
  ring

@[simp] theorem normSq_exp (v : Vec3 ℝ) : (exp v).normSq = 1 := by
  rw [normSq_eq_parts, w_exp, norm_vector_exp, abs_mul_abs_self, ← sq, ← sq, Real.cos_sq_add_sin_sq]

/-- The quaternion as one of Hamilton's. -/
def toHamilton (q : Quaternion ℝ) : ℍ[ℝ] := ⟨q.w, q.x, q.y, q.z⟩

theorem toHamilton_mul (p q : Quaternion ℝ) : (p * q).toHamilton = p.toHamilton * q.toHamilton := by
  ext
  · rw [Quaternion.re_mul]
    rfl
  · rw [Quaternion.imI_mul]
    rfl
  · rw [Quaternion.imJ_mul]
    rfl
  · rw [Quaternion.imK_mul]
    rfl

theorem norm_toHamilton (q : Quaternion ℝ) : ‖q.toHamilton‖ = q.norm := by
  have hsq : ‖q.toHamilton‖ * ‖q.toHamilton‖ = q.normSq := by
    rw [← Quaternion.normSq_eq_norm_mul_self, Quaternion.normSq_def']
    simp only [toHamilton, normSq]
    ring
  rw [norm, ← hsq, Scalar.sqrt_real, Real.sqrt_mul_self (norm_nonneg _)]

theorem norm_ofParts_zero (v : Vec3 ℝ) : (ofParts 0 v).norm = v.norm := by
  have hscalar : (ofParts 0 v).w = 0 := rfl
  rw [norm, normSq_eq_parts, hscalar, vector_ofParts, mul_zero, zero_add, Scalar.sqrt_real,
    Real.sqrt_mul_self v.norm_nonneg]

/-- The unit quaternion of a rotation vector is the exponential of the half of it. -/
theorem toHamilton_exp (v : Vec3 ℝ) :
    (exp v).toHamilton = NormedSpace.exp (ofParts 0 ((1 / 2 : ℝ) • v)).toHamilton := by
  set h := (ofParts 0 ((1 / 2 : ℝ) • v)).toHamilton with hh
  have hi : h.imI = 1 / 2 * v.x := rfl
  have hj : h.imJ = 1 / 2 * v.y := rfl
  have hk : h.imK = 1 / 2 * v.z := rfl
  have hre : h.re = 0 := rfl
  have hnorm : ‖h‖ = v.norm / 2 := by
    rw [hh, norm_toHamilton, norm_ofParts_zero, Vec3.norm_smul, abs_of_pos one_half_pos]
    ring
  have hsinc : (Real.sin ‖h‖ / ‖h‖) • h = Real.sinc ‖h‖ • h := by
    by_cases hzero : ‖h‖ = 0
    · rw [norm_eq_zero.1 hzero, smul_zero, smul_zero]
    · rw [Real.sinc_of_ne_zero hzero]
  rw [Quaternion.exp_of_re_eq_zero h hre, hsinc, hnorm, exp_eq]
  ext
  · simp [toHamilton, ofParts, hre]
  · simp [toHamilton, ofParts, Vec3.smul_def, hi]
    ring
  · simp [toHamilton, ofParts, Vec3.smul_def, hj]
    ring
  · simp [toHamilton, ofParts, Vec3.smul_def, hk]
    ring

/-! ### The logarithm -/

/-- Half the angle of a unit quaternion. -/
noncomputable def halfAngle (q : Quaternion ℝ) : ℝ := Complex.arg ⟨q.w, q.vector.norm⟩

/-- The logarithm, without a case for the vector part zero. -/
theorem log_eq (q : Quaternion ℝ) : q.log = (2 * q.halfAngle / q.vector.norm) • q.vector := by
  simp only [log]
  split
  · rw [Vec3.divide_eq_smul, Vec3.smul_smul, Scalar.double_real, div_eq_mul_inv]
    rfl
  · rename_i h
    have hzero : q.vector.norm = 0 := le_antisymm (not_lt.1 h) q.vector.norm_nonneg
    rw [hzero, div_zero, Vec3.zero_smul]

theorem halfAngle_nonneg (q : Quaternion ℝ) : 0 ≤ q.halfAngle :=
  Complex.arg_nonneg_iff.2 q.vector.norm_nonneg

theorem halfAngle_le_pi (q : Quaternion ℝ) : q.halfAngle ≤ Real.pi := Complex.arg_le_pi _

theorem halfAngle_le (hw : 0 ≤ q.w) : q.halfAngle ≤ Real.pi / 2 :=
  Complex.arg_le_pi_div_two_iff.2 (.inl hw)

section Unit

variable (h : q.normSq = 1)

include h

theorem norm_parts : ‖(⟨q.w, q.vector.norm⟩ : ℂ)‖ = 1 := by
  rw [Complex.norm_def, Complex.normSq_apply, ← normSq_eq_parts, h, Real.sqrt_one]

theorem cos_halfAngle : Real.cos q.halfAngle = q.w := by
  have hne : (⟨q.w, q.vector.norm⟩ : ℂ) ≠ 0 := by
    intro hzero
    have hnorm := norm_parts h
    rw [hzero, norm_zero] at hnorm
    exact zero_ne_one hnorm
  rw [halfAngle, Complex.cos_arg hne, norm_parts h, div_one]

theorem sin_halfAngle : Real.sin q.halfAngle = q.vector.norm := by
  rw [halfAngle, Complex.sin_arg, norm_parts h, div_one]

/-- A quaternion without a vector part does not turn. -/
theorem halfAngle_eq_zero (hw : 0 ≤ q.w) (hv : q.vector.norm = 0) : q.halfAngle = 0 := by
  have hsin : Real.sin q.halfAngle = 0 := (sin_halfAngle h).trans hv
  have hlt : q.halfAngle < Real.pi := (halfAngle_le hw).trans_lt (half_lt_self Real.pi_pos)
  have hgt : -Real.pi < q.halfAngle := (neg_lt_zero.2 Real.pi_pos).trans_le q.halfAngle_nonneg
  exact (Real.sin_eq_zero_iff_of_lt_of_lt hgt hlt).1 hsin

/-- The logarithm is as long as the angle. -/
theorem norm_log (hw : 0 ≤ q.w) : q.log.norm = 2 * q.halfAngle := by
  rw [log_eq, Vec3.norm_smul, abs_of_nonneg (div_nonneg (mul_nonneg two_pos.le q.halfAngle_nonneg)
    q.vector.norm_nonneg)]
  by_cases hv : q.vector.norm = 0
  · rw [halfAngle_eq_zero h hw hv, hv, mul_zero, mul_zero]
  · exact div_mul_cancel₀ _ hv

/-- The logarithm of a quaternion that turns by at most a half turn is its rotation vector. -/
theorem exp_log (hw : 0 ≤ q.w) : exp q.log = q := by
  have hhalf : q.log.norm / 2 = q.halfAngle := by
    rw [norm_log h hw, mul_div_cancel_left₀ _ two_ne_zero]
  have hscalar : (exp q.log).w = q.w := by
    rw [w_exp, hhalf, cos_halfAngle h]
  have hvector : (exp q.log).vector = q.vector := by
    rw [vector_exp, hhalf, log_eq, Vec3.smul_smul]
    by_cases hv : q.vector.norm = 0
    · rw [Vec3.norm_eq_zero_iff.1 hv, Vec3.smul_zero]
    · have hone : Real.sinc q.halfAngle / 2 * (2 * q.halfAngle / q.vector.norm) = 1 := by
        calc Real.sinc q.halfAngle / 2 * (2 * q.halfAngle / q.vector.norm)
            = Real.sinc q.halfAngle * q.halfAngle / q.vector.norm := by ring
          _ = 1 := by rw [sinc_mul_self, sin_halfAngle h, div_self hv]
      rw [hone, Vec3.one_smul]
  exact ext_parts hscalar hvector

end Unit

/-- A rotation vector shorter than a full turn is read back. -/
theorem log_exp (hv : v.norm < 2 * Real.pi) : (exp v).log = v := by
  have hhalf : (exp v).halfAngle = v.norm / 2 := by
    refine Real.injOn_cos ⟨halfAngle_nonneg _, halfAngle_le_pi _⟩
      ⟨div_nonneg v.norm_nonneg two_pos.le, by linarith⟩ ?_
    rw [cos_halfAngle (normSq_exp v), w_exp]
  have hsin : (exp v).vector.norm = Real.sin (v.norm / 2) := by
    rw [← sin_halfAngle (normSq_exp v), hhalf]
  rw [log_eq, hhalf, hsin, vector_exp, Vec3.smul_smul]
  by_cases hzero : v.norm = 0
  · rw [Vec3.norm_eq_zero_iff.1 hzero, Vec3.smul_zero]
  · have hpos : 0 < v.norm / 2 := half_pos (v.norm_nonneg.lt_of_ne' hzero)
    have hsin0 : Real.sin (v.norm / 2) ≠ 0 :=
      (Real.sin_pos_of_pos_of_lt_pi hpos (by linarith)).ne'
    have hone : 2 * (v.norm / 2) / Real.sin (v.norm / 2) * (Real.sinc (v.norm / 2) / 2) = 1 := by
      calc 2 * (v.norm / 2) / Real.sin (v.norm / 2) * (Real.sinc (v.norm / 2) / 2)
          = Real.sinc (v.norm / 2) * (v.norm / 2) / Real.sin (v.norm / 2) := by ring
        _ = 1 := by rw [sinc_mul_self, div_self hsin0]
    rw [hone, Vec3.one_smul]

/-- The logarithm of the way back. -/
theorem log_conj (q : Quaternion ℝ) : q.conj.log = -q.log := by
  have hvector : q.conj.vector = -q.vector := rfl
  have hhalf : q.conj.halfAngle = q.halfAngle := by
    rw [halfAngle, hvector, Vec3.norm_neg]
    rfl
  rw [log_eq, log_eq, hhalf, hvector, Vec3.norm_neg, Vec3.smul_neg]

/-- The logarithm of a rotation that is seen from another frame. -/
theorem log_mul_mul_conj (hg : g.normSq = 1) (q : Quaternion ℝ) :
    (g * q * g.conj).log = g.rotate q.log := by
  have hvector := vector_mul_mul_conj hg q
  have hnorm : (g.rotate q.vector).norm = q.vector.norm := norm_rotate hg _
  have hhalf : (g * q * g.conj).halfAngle = q.halfAngle := by
    rw [halfAngle, hvector, hnorm, w_mul_mul_conj hg]
    rfl
  rw [log_eq, log_eq, hhalf, hvector, hnorm, rotate_smul]

end Quaternion

end WholeBody
