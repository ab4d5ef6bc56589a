import Mathlib
import WholeBody.Proofs.Linear.Rotation
import WholeBody.Proofs.Linear.Vec3

/-!
# Products of quaternions

The product is associative and the norm is multiplicative, so the unit quaternions are a group whose
inverse is the conjugate. They act on vectors by turning them, which keeps every length. A unit
quaternion and its negative turn alike, and no other two do.

## Main statements

* `Quaternion.mul_assoc`, `Quaternion.conj_mul`, `Quaternion.normSq_mul` — products.
* `Quaternion.rotate_mul`, `Quaternion.norm_rotate` — turning one after the other, and lengths.
* `Quaternion.mul_mul_conj` — conjugation turns the vector part.
* `Quaternion.sameRotation_iff` — which quaternions turn alike.
-/

namespace WholeBody

namespace Quaternion

variable {p q g : Quaternion ℝ}

theorem vector_ofParts (w : ℝ) (v : Vec3 ℝ) : (ofParts w v).vector = v := rfl

theorem ext_parts (hw : p.w = q.w) (hv : p.vector = q.vector) : p = q :=
  Quaternion.ext hw (congrArg Vec3.x hv) (congrArg Vec3.y hv) (congrArg Vec3.z hv)

/-! ### Products -/

protected theorem mul_assoc (p q r : Quaternion ℝ) : p * q * r = p * (q * r) := by
  simp only [mul_def, Quaternion.mk.injEq]
  refine ⟨?_, ?_, ?_, ?_⟩ <;> ring

@[simp] protected theorem one_mul (q : Quaternion ℝ) : one * q = q := by
  simp [mul_def, one]

@[simp] protected theorem mul_one (q : Quaternion ℝ) : q * one = q := by
  simp [mul_def, one]

@[simp] protected theorem neg_neg (q : Quaternion ℝ) : - -q = q := by
  simp [neg_def]

protected theorem neg_mul (p q : Quaternion ℝ) : -p * q = -(p * q) := by
  simp only [mul_def, neg_def, Quaternion.mk.injEq]
  refine ⟨?_, ?_, ?_, ?_⟩ <;> ring

protected theorem mul_neg (p q : Quaternion ℝ) : p * -q = -(p * q) := by
  simp only [mul_def, neg_def, Quaternion.mk.injEq]
  refine ⟨?_, ?_, ?_, ?_⟩ <;> ring

/-! ### Conjugates -/

@[simp] theorem conj_conj (q : Quaternion ℝ) : q.conj.conj = q := by
  simp [conj]

theorem conj_neg (q : Quaternion ℝ) : (-q).conj = -q.conj := rfl

theorem conj_mul (p q : Quaternion ℝ) : (p * q).conj = q.conj * p.conj := by
  simp only [mul_def, conj, Quaternion.mk.injEq]
  refine ⟨?_, ?_, ?_, ?_⟩ <;> ring

/-! ### Norms -/

theorem normSq_mul (p q : Quaternion ℝ) : (p * q).normSq = p.normSq * q.normSq := by
  simp only [mul_def, normSq]
  ring

@[simp] theorem normSq_conj (q : Quaternion ℝ) : q.conj.normSq = q.normSq := by
  simp only [conj, normSq, neg_mul_neg]

@[simp] theorem normSq_neg (q : Quaternion ℝ) : (-q).normSq = q.normSq := by
  simp only [neg_def, normSq, neg_mul_neg]

/-- The square of the norm, from the scalar and the vector part. -/
theorem normSq_eq_parts (q : Quaternion ℝ) :
    q.normSq = q.w * q.w + q.vector.norm * q.vector.norm := by
  rw [Vec3.norm_mul_self, Vec3.dot_eq, normSq, vector]
  ring

theorem norm_eq_one (h : q.normSq = 1) : q.norm = 1 := by
  rw [norm, h, Scalar.sqrt_real, Real.sqrt_one]

theorem normalize_of_normSq_eq_one (h : q.normSq = 1) : q.normalize = q := by
  simp only [normalize, norm_eq_one h, div_one]

theorem ne_zero_of_normSq_eq_one (h : q.normSq = 1) : q ≠ ⟨0, 0, 0, 0⟩ := by
  rintro rfl
  simp [normSq] at h

/-- The product of unit quaternions is one. -/
theorem normSq_mul_eq_one (hp : p.normSq = 1) (hq : q.normSq = 1) : (p * q).normSq = 1 := by
  rw [normSq_mul, hp, hq, mul_one]

theorem mul_conj_self (h : q.normSq = 1) : q * q.conj = one := by
  rw [normSq] at h
  simp only [mul_def, conj, one, Quaternion.mk.injEq]
  refine ⟨?_, ?_, ?_, ?_⟩ <;> linarith

theorem conj_mul_self (h : q.normSq = 1) : q.conj * q = one := by
  simpa using mul_conj_self (q := q.conj) (by simpa using h)

theorem mul_conj_mul (hq : q.normSq = 1) (p : Quaternion ℝ) : p * q.conj * q = p := by
  rw [Quaternion.mul_assoc, conj_mul_self hq, Quaternion.mul_one]

theorem mul_mul_conj_self (hq : q.normSq = 1) (p : Quaternion ℝ) : p * q * q.conj = p := by
  rw [Quaternion.mul_assoc, mul_conj_self hq, Quaternion.mul_one]

/-! ### Turning -/

theorem rotate_smul (q : Quaternion ℝ) (c : ℝ) (v : Vec3 ℝ) :
    q.rotate (c • v) = c • q.rotate v := by
  simp only [rotate, Vec3.smul_def, Vec3.add_def, Vec3.cross, Vec3.mk.injEq]
  refine ⟨?_, ?_, ?_⟩ <;> ring

@[simp] theorem rotate_one (v : Vec3 ℝ) : one.rotate v = v := by
  simp [rotate, one, vector, Vec3.cross, Vec3.add_def, Vec3.smul_def]

theorem rotate_neg (q : Quaternion ℝ) (v : Vec3 ℝ) : (-q).rotate v = q.rotate v := by
  simp only [rotate, vector, neg_def, Vec3.smul_def, Vec3.add_def, Vec3.cross, Vec3.mk.injEq]
  refine ⟨?_, ?_, ?_⟩ <;> ring

/-- Conjugation with a unit quaternion turns the vector part and keeps the scalar part. -/
theorem mul_mul_conj (hg : g.normSq = 1) (w : ℝ) (v : Vec3 ℝ) :
    g * ofParts w v * g.conj = ofParts w (g.rotate v) := by
  have hsum : g * ofParts w v * g.conj = ofParts (w * g.normSq) (g.toMat3.mulVec v) := by
    simp only [ofParts, toMat3, Mat3.mulVec, Vec3.dot_eq, Scalar.double_real, mul_def, conj, normSq,
      Quaternion.mk.injEq]
    refine ⟨?_, ?_, ?_, ?_⟩ <;> ring
  rw [hsum, hg, mul_one, rotate_eq_mulVec hg]

theorem w_mul_mul_conj (hg : g.normSq = 1) (q : Quaternion ℝ) : (g * q * g.conj).w = q.w := by
  have hparts : g * q * g.conj = ofParts q.w (g.rotate q.vector) := mul_mul_conj hg q.w q.vector
  rw [hparts]
  rfl

theorem vector_mul_mul_conj (hg : g.normSq = 1) (q : Quaternion ℝ) :
    (g * q * g.conj).vector = g.rotate q.vector := by
  have hparts : g * q * g.conj = ofParts q.w (g.rotate q.vector) := mul_mul_conj hg q.w q.vector
  rw [hparts, vector_ofParts]

/-- Turning by a product is turning twice. -/
theorem rotate_mul (hp : p.normSq = 1) (hq : q.normSq = 1) (v : Vec3 ℝ) :
    (p * q).rotate v = p.rotate (q.rotate v) := by
  have hparts : ofParts 0 ((p * q).rotate v) = ofParts 0 (p.rotate (q.rotate v)) := by
    rw [← mul_mul_conj (normSq_mul_eq_one hp hq), ← mul_mul_conj hp, ← mul_mul_conj hq, conj_mul]
    simp only [Quaternion.mul_assoc]
  exact congrArg vector hparts

/-- Turning keeps the length. -/
theorem norm_rotate (hg : g.normSq = 1) (v : Vec3 ℝ) : (g.rotate v).norm = v.norm := by
  have hsq : (ofParts 0 (g.rotate v)).normSq = (ofParts 0 v).normSq := by
    rw [← mul_mul_conj hg, normSq_mul, normSq_mul, normSq_conj, hg, one_mul, mul_one]
  rw [normSq_eq_parts, normSq_eq_parts, vector_ofParts, vector_ofParts] at hsq
  exact (mul_self_inj (Vec3.norm_nonneg _) (Vec3.norm_nonneg _)).1 (add_left_cancel hsq)

/-! ### Rotations -/

/-- Two quaternions for the same rotation: a quaternion and its negative turn alike. -/
def SameRotation (p q : Quaternion ℝ) : Prop := p = q ∨ p = -q

theorem SameRotation.normSq_eq (h : SameRotation p q) : p.normSq = q.normSq := by
  obtain rfl | rfl := h
  · rfl
  · exact normSq_neg q

theorem SameRotation.abs_w_eq (h : SameRotation p q) : |p.w| = |q.w| := by
  obtain rfl | rfl := h
  · rfl
  · exact abs_neg q.w

/-- Only two unit quaternions turn no vector. -/
theorem eq_one_or_eq_neg_one (h : q.normSq = 1) (hq : ∀ v, q.rotate v = v) :
    q = one ∨ q = -one := by
  have hx : 1 - 2 * (q.y * q.y + q.z * q.z) = 1 := by
    have h₁ := congrArg Vec3.x (hq ⟨1, 0, 0⟩)
    simp only [rotate, vector, Vec3.cross, Vec3.add_def, Vec3.smul_def, Scalar.double_real] at h₁
    linarith
  have hy : 1 - 2 * (q.x * q.x + q.z * q.z) = 1 := by
    have h₂ := congrArg Vec3.y (hq ⟨0, 1, 0⟩)
    simp only [rotate, vector, Vec3.cross, Vec3.add_def, Vec3.smul_def, Scalar.double_real] at h₂
    linarith
  have hxx := mul_self_nonneg q.x
  have hyy := mul_self_nonneg q.y
  have hzz := mul_self_nonneg q.z
  have hx0 : q.x = 0 := mul_self_eq_zero.1 (by linarith)
  have hy0 : q.y = 0 := mul_self_eq_zero.1 (by linarith)
  have hz0 : q.z = 0 := mul_self_eq_zero.1 (by linarith)
  have hw : q.w * q.w = 1 := by
    rw [normSq, hx0, hy0, hz0] at h
    linarith
  obtain hw | hw := mul_self_eq_one_iff.1 hw
  · exact .inl (Quaternion.ext hw hx0 hy0 hz0)
  · refine .inr (Quaternion.ext hw ?_ ?_ ?_)
    · exact hx0.trans neg_zero.symm
    · exact hy0.trans neg_zero.symm
    · exact hz0.trans neg_zero.symm

/-- Unit quaternions that turn every vector alike are equal or negatives of each other. -/
theorem sameRotation_iff (hp : p.normSq = 1) (hq : q.normSq = 1) :
    SameRotation p q ↔ ∀ v, p.rotate v = q.rotate v := by
  constructor
  · rintro (rfl | rfl) v
    · rfl
    · exact rotate_neg q v
  · intro h
    have hconj : q.conj.normSq = 1 := by rw [normSq_conj, hq]
    have hone : q * (q.conj * p) = p := by
      rw [← Quaternion.mul_assoc, mul_conj_self hq, Quaternion.one_mul]
    have hstill (v : Vec3 ℝ) : (q.conj * p).rotate v = v := by
      rw [rotate_mul hconj hp, h v, ← rotate_mul hconj hq, conj_mul_self hq, rotate_one]
    obtain hr | hr := eq_one_or_eq_neg_one (normSq_mul_eq_one hconj hp) hstill
    · left
      rw [← hone, hr, Quaternion.mul_one]
    · right
      rw [← hone, hr, Quaternion.mul_neg, Quaternion.mul_one]

end Quaternion

end WholeBody
