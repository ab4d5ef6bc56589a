import Mathlib
import WholeBody.Proofs.Linear.Entry

/-!
# Lengths and products of vectors

The dot product is bilinear and symmetric, and the length of a vector comes from it.

## Main statements

* `Vec3.norm_mul_self` — the length, squared.
* `Vec3.norm_smul` — scaling a vector scales its length.
* `Vec3.norm_eq_zero_iff` — only one vector has no length.
* `Vec3.normalize_smul` — scaling a vector does not turn it.
-/

namespace WholeBody

namespace Vec3

variable {v w : Vec3 ℝ}

/-! ### The dot product -/

theorem smul_dot (c : ℝ) (v w : Vec3 ℝ) : (c • v).dot w = c * v.dot w := by
  simp only [smul_def, dot_eq]
  ring

theorem dot_smul (c : ℝ) (v w : Vec3 ℝ) : v.dot (c • w) = c * v.dot w := by
  simp only [smul_def, dot_eq]
  ring

theorem add_dot (u v w : Vec3 ℝ) : (u + v).dot w = u.dot w + v.dot w := by
  simp only [add_def, dot_eq]
  ring

theorem sub_dot (u v w : Vec3 ℝ) : (u - v).dot w = u.dot w - v.dot w := by
  simp only [sub_def, dot_eq]
  ring

theorem divide_dot (c : ℝ) (v w : Vec3 ℝ) : (v.divide c).dot w = v.dot w / c := by
  simp only [divide, dot_eq]
  ring

theorem dot_comm (v w : Vec3 ℝ) : v.dot w = w.dot v := by
  simp only [dot_eq]
  ring

theorem cross_dot_self (v w : Vec3 ℝ) : (v.cross w).dot v = 0 := by
  simp only [cross, dot_eq]
  ring

theorem cross_self (v : Vec3 ℝ) : v.cross v = 0 := by
  simp only [cross, zero_def, Vec3.mk.injEq]
  refine ⟨?_, ?_, ?_⟩ <;> ring

theorem cross_dot_right (v w : Vec3 ℝ) : (v.cross w).dot w = 0 := by
  simp only [cross, dot_eq]
  ring

theorem cross_cross (v w : Vec3 ℝ) : w.cross (v.cross w) = w.dot w • v - w.dot v • w := by
  simp only [cross, dot_eq, smul_def, sub_def, Vec3.mk.injEq]
  refine ⟨?_, ?_, ?_⟩ <;> ring

theorem cross_dot_cross_self (v w : Vec3 ℝ) :
    (v.cross w).dot (v.cross w) = v.dot v * w.dot w - v.dot w ^ 2 := by
  simp only [cross, dot_eq]
  ring

/-- What two vectors share along a normal, from what they share in its plane. -/
theorem cross_dot_mul_cross_dot (u v f g : Vec3 ℝ) :
    (u.cross v).dot f * (u.cross v).dot g =
      u.dot u * (v.dot v * f.dot g - v.dot f * v.dot g)
        - u.dot v * (u.dot v * f.dot g - u.dot f * v.dot g)
        + u.dot g * (u.dot v * v.dot f - v.dot v * u.dot f) := by
  simp only [cross, dot_eq]
  ring

/-- A vector is known by its products. -/
theorem ext_dot (h : ∀ g, v.dot g = w.dot g) : v = w := by
  refine Vec3.ext ?_ ?_ ?_
  · simpa [dot_eq, unitX] using h unitX
  · simpa [dot_eq, unitY] using h unitY
  · simpa [dot_eq, unitZ] using h unitZ

theorem dot_self_nonneg (v : Vec3 ℝ) : 0 ≤ v.dot v := by
  have hsq (a : ℝ) : 0 ≤ a * a := mul_self_nonneg a
  rw [dot_eq]
  linarith [hsq v.x, hsq v.y, hsq v.z]

/-! ### Sums and multiples -/

protected theorem add_assoc (u v w : Vec3 ℝ) : u + v + w = u + (v + w) := by
  simp only [add_def, add_assoc]

@[simp] protected theorem zero_add (v : Vec3 ℝ) : 0 + v = v := by
  simp [add_def, zero_def]

@[simp] protected theorem add_zero (v : Vec3 ℝ) : v + 0 = v := by
  simp [add_def, zero_def]

@[simp] protected theorem sub_zero (v : Vec3 ℝ) : v - 0 = v := by
  simp [sub_def, zero_def]

protected theorem smul_smul (a b : ℝ) (v : Vec3 ℝ) : a • b • v = (a * b) • v := by
  simp only [smul_def, mul_assoc]

@[simp] protected theorem one_smul (v : Vec3 ℝ) : (1 : ℝ) • v = v := by
  simp [smul_def]

@[simp] protected theorem smul_zero (c : ℝ) : c • (0 : Vec3 ℝ) = 0 := by
  simp [smul_def, zero_def]

@[simp] protected theorem zero_smul (v : Vec3 ℝ) : (0 : ℝ) • v = 0 := by
  simp [smul_def, zero_def]

protected theorem smul_neg (c : ℝ) (v : Vec3 ℝ) : c • -v = -(c • v) := by
  simp only [smul_def, neg_def, mul_neg]

/-- Three entries of a vector to which a multiple of another one has been added. -/
theorem ofVec_add_smul {x y : Vec ℝ} (h : y.size ≤ x.size) (c : ℝ) (start : ℕ) :
    ofVec (x + c • y) start = ofVec x start + c • ofVec y start := by
  have hsize : (c • y).size ≤ x.size := by rwa [Vec.size_smul]
  simp only [ofVec, Vec.entry_add hsize, Vec.entry_smul, add_def, smul_def]

theorem divide_eq_smul (c : ℝ) (v : Vec3 ℝ) : v.divide c = c⁻¹ • v := by
  simp only [divide, smul_def, div_eq_inv_mul]

/-! ### The length -/

theorem norm_nonneg (v : Vec3 ℝ) : 0 ≤ v.norm := Real.sqrt_nonneg _

theorem norm_mul_self (v : Vec3 ℝ) : v.norm * v.norm = v.dot v :=
  Real.mul_self_sqrt v.dot_self_nonneg

theorem norm_smul (c : ℝ) (v : Vec3 ℝ) : (c • v).norm = |c| * v.norm := by
  have hdot : (c • v).dot (c • v) = c ^ 2 * v.dot v := by
    rw [smul_dot, dot_smul]
    ring
  rw [norm, norm, hdot, Scalar.sqrt_real, Real.sqrt_mul (sq_nonneg c), Real.sqrt_sq_eq_abs]
  rfl

@[simp] theorem norm_neg (v : Vec3 ℝ) : (-v).norm = v.norm := by
  simp only [norm, dot_eq, neg_def, neg_mul_neg]

@[simp] theorem norm_zero : (0 : Vec3 ℝ).norm = 0 := by
  simp [norm, dot_eq, zero_def]

theorem norm_eq_zero_iff : v.norm = 0 ↔ v = 0 := by
  constructor
  · intro hv
    have hdot : v.x * v.x + v.y * v.y + v.z * v.z = 0 := by
      rw [← dot_eq, ← norm_mul_self, hv, mul_zero]
    have hx := mul_self_nonneg v.x
    have hy := mul_self_nonneg v.y
    have hz := mul_self_nonneg v.z
    refine Vec3.ext ?_ ?_ ?_ <;> exact mul_self_eq_zero.1 (by linarith)
  · rintro rfl
    exact norm_zero

theorem dot_self_pos (hv : v ≠ 0) : 0 < v.dot v := by
  refine (dot_self_nonneg v).lt_of_ne fun hzero => hv ?_
  rw [← norm_eq_zero_iff, norm, ← hzero]
  exact Real.sqrt_zero

/-! ### The direction -/

theorem norm_smul_normalize (hv : v ≠ 0) : v.norm • v.normalize = v := by
  have hnorm : v.norm ≠ 0 := norm_eq_zero_iff.not.2 hv
  rw [normalize, divide_eq_smul, Vec3.smul_smul, mul_inv_cancel₀ hnorm, Vec3.one_smul]

/-- A vector and its positive multiples have one direction. -/
theorem normalize_smul {c : ℝ} (hc : 0 < c) (v : Vec3 ℝ) : (c • v).normalize = v.normalize := by
  rw [normalize, normalize, norm_smul, abs_of_pos hc]
  simp only [divide, smul_def, mul_div_mul_left _ _ hc.ne']

end Vec3

end WholeBody
