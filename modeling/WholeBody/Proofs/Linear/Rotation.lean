import Mathlib
import WholeBody.Linear.Quaternion
import WholeBody.Proofs.Linear.Entry

/-!
# Rotations

A unit quaternion turns a vector by conjugation. Its rotation matrix and the shorter formula for
turning one vector do the same.

## Main statements

* `Quaternion.normSq_normalize` — a quaternion that is not zero can be normalized.
* `Quaternion.ofParts_mulVec_toMat3` — the rotation matrix is conjugation.
* `Quaternion.rotate_eq_mulVec` — turning one vector is multiplying with the rotation matrix.
-/

namespace WholeBody

namespace Quaternion

variable {q : Quaternion ℝ}

theorem normSq_nonneg (q : Quaternion ℝ) : 0 ≤ q.normSq := by
  rw [normSq]
  nlinarith [mul_self_nonneg q.x, mul_self_nonneg q.y, mul_self_nonneg q.z, mul_self_nonneg q.w]

theorem normSq_pos (h : q ≠ ⟨0, 0, 0, 0⟩) : 0 < q.normSq := by
  refine (normSq_nonneg q).lt_of_ne fun hzero => h ?_
  have hx := mul_self_nonneg q.x
  have hy := mul_self_nonneg q.y
  have hz := mul_self_nonneg q.z
  have hw := mul_self_nonneg q.w
  rw [normSq] at hzero
  refine Quaternion.ext ?_ ?_ ?_ ?_ <;> exact mul_self_eq_zero.1 (by linarith)

theorem normSq_normalize (h : q ≠ ⟨0, 0, 0, 0⟩) : q.normalize.normSq = 1 := by
  have hnorm : q.norm * q.norm = q.normSq := Real.mul_self_sqrt (normSq_nonneg q)
  calc q.normalize.normSq = q.normSq / (q.norm * q.norm) := by
        simp only [normalize, normSq]
        ring
    _ = 1 := by rw [hnorm, div_self (normSq_pos h).ne']

/-- The rotation matrix of a quaternion turns a vector by conjugation. -/
theorem ofParts_mulVec_toMat3 (q : Quaternion ℝ) (v : Vec3 ℝ) :
    ofParts 0 (q.toMat3.mulVec v) = q * ofParts 0 v * q.conj := by
  simp only [ofParts, toMat3, Mat3.mulVec, Vec3.dot_eq, Scalar.double_real, mul_def, conj,
    Quaternion.mk.injEq]
  refine ⟨?_, ?_, ?_, ?_⟩ <;> ring

/-- Turning one vector needs no matrix. -/
theorem rotate_eq_mulVec (h : q.normSq = 1) (v : Vec3 ℝ) : q.rotate v = q.toMat3.mulVec v := by
  have hw : q.w * q.w = 1 - (q.x * q.x + q.y * q.y + q.z * q.z) := by
    rw [normSq] at h
    linarith
  simp only [rotate, toMat3, vector, Mat3.mulVec, Vec3.cross, Vec3.dot_eq, Vec3.add_def,
    Vec3.smul_def, Scalar.double_real, hw, Vec3.mk.injEq]
  refine ⟨?_, ?_, ?_⟩ <;> ring

end Quaternion

namespace Mat3

variable {k : ℕ}

theorem mulVec_mul {m n : Mat3 ℝ} {v : Vec3 ℝ} : (m * n).mulVec v = m.mulVec (n.mulVec v) := by
  simp only [mul_def, mulVec, transpose, Vec3.dot_eq, Vec3.mk.injEq]
  refine ⟨?_, ?_, ?_⟩ <;> ring

theorem transpose_transpose (m : Mat3 ℝ) : m.transpose.transpose = m := rfl

theorem transpose_mul (m n : Mat3 ℝ) : (m * n).transpose = n.transpose * m.transpose := by
  simp only [mul_def, mulVec, transpose, Vec3.dot_eq, Mat3.mk.injEq, Vec3.mk.injEq]
  refine ⟨⟨?_, ?_, ?_⟩, ⟨?_, ?_, ?_⟩, ?_, ?_, ?_⟩ <;> ring

protected theorem mul_assoc (l m n : Mat3 ℝ) : l * m * n = l * (m * n) := by
  simp only [mul_def, mulVec, transpose, Vec3.dot_eq, Mat3.mk.injEq, Vec3.mk.injEq]
  refine ⟨⟨?_, ?_, ?_⟩, ⟨?_, ?_, ?_⟩, ?_, ?_, ?_⟩ <;> ring

/-- A matrix moves to the other side of a product as its mirror image. -/
theorem dot_mulVec (m : Mat3 ℝ) (v w : Vec3 ℝ) :
    v.dot (m.mulVec w) = (m.transpose.mulVec v).dot w := by
  simp only [mulVec, transpose, Vec3.dot_eq]
  ring

theorem mulVec_identity {v : Vec3 ℝ} : identity.mulVec v = v := by
  simp [mulVec, identity, diagonal, Vec3.dot_eq]

theorem mulVec_zero_matrix (v : Vec3 ℝ) : zero.mulVec v = 0 := by
  simp [mulVec, zero, Vec3.zero_def, Vec3.dot_eq]

theorem dot_col_identity (v : Vec3 ℝ) (hk : k < 3) : (identity.col k).dot v = v.component k := by
  match k, hk with
  | 0, _ | 1, _ | 2, _ => simp [col, identity, diagonal, Vec3.component, Vec3.dot_eq]

/-- The columns of `-[v]×` are paired with `v × w`. -/
theorem dot_col_neg_skew (v w : Vec3 ℝ) (hk : k < 3) :
    ((-skew v).col k).dot w = (v.cross w).component k := by
  match k, hk with
  | 0, _ | 1, _ | 2, _ =>
    simp only [col, neg_def, Vec3.neg_def, skew, Vec3.component, Vec3.dot_eq, Vec3.cross]
    ring

/-- The matrix `-[v]×` takes `w` to `w × v`. -/
theorem mulVec_neg_skew (v w : Vec3 ℝ) : (-skew v).mulVec w = w.cross v := by
  simp only [mulVec, neg_def, Vec3.neg_def, skew, Vec3.dot_eq, Vec3.cross, Vec3.mk.injEq]
  refine ⟨?_, ?_, ?_⟩ <;> ring

end Mat3

end WholeBody
