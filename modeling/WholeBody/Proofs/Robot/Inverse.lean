import Mathlib
import WholeBody.Proofs.Linear.Symmetric
import WholeBody.Proofs.Robot.NewtonEuler

/-!
# The inverse mass matrix of a base

The mass matrix of a floating body without joints is made of its mass and of its inertia, turned by
its orientation. Turning keeps an inverse an inverse, so the inverse of that matrix is the mass
matrix of another body: the one with the inverse mass and the inverse inertia.

## Main statements

* `Quaternion.mulVec_toMat3_transpose` — turning back and turning again.
* `FloatingBody.massMatrix_mul` — the product of the mass matrices of two bodies.
* `FloatingBody.exists_baseMass_inverse` — the inverse of the mass matrix of a base.
-/

namespace WholeBody

open Finset

/-- A matrix with an inverse on both sides. -/
def Mat3.IsInvertible (m : Mat3 ℝ) : Prop := ∃ k, m * k = identity ∧ k * m = identity

namespace Quaternion

variable (q : Quaternion ℝ) (v : Vec3 ℝ)

/-- Turning back and turning again. -/
theorem mulVec_toMat3_transpose :
    q.toMat3.mulVec (q.toMat3.transpose.mulVec v) = q.normSq ^ 2 • v := by
  simp only [toMat3, Mat3.transpose, Mat3.mulVec, Vec3.dot_eq, Vec3.smul_def, Scalar.double_real,
    normSq]
  refine Vec3.ext ?_ ?_ ?_ <;> ring

/-- Turning and turning back. -/
theorem mulVec_transpose_toMat3 :
    q.toMat3.transpose.mulVec (q.toMat3.mulVec v) = q.normSq ^ 2 • v := by
  simp only [toMat3, Mat3.transpose, Mat3.mulVec, Vec3.dot_eq, Vec3.smul_def, Scalar.double_real,
    normSq]
  refine Vec3.ext ?_ ?_ ?_ <;> ring

end Quaternion

/-- Matrices of one shape that do the same to every vector are equal. -/
theorem Mat.ext_mulVec {m k : Mat ℝ} (hr : m.rows = k.rows) (hc : m.cols = k.cols)
    (h : ∀ v : Vec ℝ, ∀ i < m.rows, (m.mulVec v).entry i = (k.mulVec v).entry i) : m = k := by
  refine ext_entry hr hc fun i hi j hj => ?_
  have hcol {b : Mat ℝ} (hb : j < b.cols) :
      (b.mulVec (.ofFn b.cols fun l => if l = j then 1 else 0)).entry i = b.entry i j := by
    rw [entry_mulVec, sum_eq_single_of_mem j (mem_range.2 hb)]
    · rw [Vec.entry_ofFn_of_lt hb, if_pos rfl, mul_one]
    · intro l hl hlj
      rw [Vec.entry_ofFn_of_lt (mem_range.1 hl), if_neg hlj, mul_zero]
  rw [← hcol hj, h _ i hi, hc, hcol (hc ▸ hj)]

/-- A matrix with an inverse takes each value once. -/
theorem Mat.mulVec_eq_iff {m k : Mat ℝ} {n : ℕ} (hright : m * k = identity n)
    (hleft : k * m = identity n) {v w : Vec ℝ} (hv : v.size = n) (hw : w.size = n) :
    m.mulVec v = w ↔ v = k.mulVec w := by
  have hone {u : Vec ℝ} (hu : u.size = n) : (identity n).mulVec u = u := by
    refine Vec.ext_entry ((size_mulVec _ _).trans hu.symm) fun i hi => ?_
    exact mulVec_identity (hi.trans_eq (size_mulVec _ _))
  constructor
  · rintro rfl
    rw [← mulVec_mul, hleft, hone hv]
  · rintro rfl
    rw [← mulVec_mul, hright, hone hw]

theorem Mat.mulVec_neg_right (m : Mat ℝ) (v : Vec ℝ) : m.mulVec (-v) = -m.mulVec v := by
  refine Vec.ext_entry (by rw [Vec.size_neg, size_mulVec, size_mulVec]) fun i _ => ?_
  rw [Vec.entry_neg, entry_mulVec, entry_mulVec, ← sum_neg_distrib]
  exact sum_congr rfl fun j _ => by rw [Vec.entry_neg, mul_neg]

namespace FloatingBody

variable {b b' r : FloatingBody ℝ} {state : RobotState ℝ}

/-! ### Bodies with inverse inertia -/

section Turned

variable (hq : Quaternion.ofVec state.q 3 ≠ ⟨0, 0, 0, 0⟩)

include hq

/-- Turning keeps an inverse an inverse. -/
theorem mulVec_worldInertia (hinertia : b.inertia * b'.inertia = .identity) (v : Vec3 ℝ) :
    (b.worldInertia state).mulVec ((b'.worldInertia state).mulVec v) = v := by
  have hunit : (orientation state).normSq = 1 := Quaternion.normSq_normalize hq
  have hone (w : Vec3 ℝ) : (1 : ℝ) ^ 2 • w = w := by
    simp [Vec3.smul_def]
  have hturn (w : Vec3 ℝ) : (orientation state).toMat3.transpose.mulVec
      ((orientation state).toMat3.mulVec w) = w := by
    rw [Quaternion.mulVec_transpose_toMat3, hunit, hone]
  have hback (w : Vec3 ℝ) : (orientation state).toMat3.mulVec
      ((orientation state).toMat3.transpose.mulVec w) = w := by
    rw [Quaternion.mulVec_toMat3_transpose, hunit, hone]
  have hinverse (w : Vec3 ℝ) : b.inertia.mulVec (b'.inertia.mulVec w) = w := by
    rw [← Mat3.mulVec_mul, hinertia, Mat3.mulVec_identity]
  simp only [worldInertia, Mat3.mulVec_mul, hturn, hinverse, hback]

/-- The mass matrices of two bodies without joints are inverse to each other when their masses and
their inertias are. -/
theorem massMatrix_mul (hjoints : b.joints = []) (hjoints' : b'.joints = [])
    (hmass : b.mass * b'.mass = 1) (hinertia : b.inertia * b'.inertia = .identity) :
    b.massMatrix state * b'.massMatrix state = .identity 6 := by
  have hnv : b.numVelocities = 6 := by rw [numVelocities, hjoints]; rfl
  have hnv' : b'.numVelocities = 6 := by rw [numVelocities, hjoints']; rfl
  refine Mat.ext_mulVec hnv hnv' fun v i hi => ?_
  have hi : i < 6 := hi.trans_eq hnv
  rw [Mat.mulVec_mul, Mat.mulVec_identity hi]
  by_cases hi3 : i < 3
  · rw [mulVec_massMatrix_force hi3, mulVec_massMatrix_force hi3, ← mul_assoc, hmass, one_mul]
  · obtain ⟨k, rfl⟩ := Nat.exists_eq_add_of_le (Nat.le_of_not_lt hi3)
    have hk : k < 3 := by omega
    have hspin : Vec3.ofVec ((b'.massMatrix state).mulVec v) 3 =
        (b'.worldInertia state).mulVec (.ofVec v 3) := by
      refine Vec3.ext_component fun l hl => ?_
      rw [Vec3.component_ofVec 3 hl, mulVec_massMatrix_torque hl]
    rw [mulVec_massMatrix_torque hk, hspin, mulVec_worldInertia hq hinertia,
      Vec3.component_ofVec 3 hk]

end Turned

/-! ### The base -/

/-- The mass matrix of the base: the block of the first six velocities. -/
noncomputable def baseMass (r : FloatingBody ℝ) (state : RobotState ℝ) : Mat ℝ :=
  (r.massMatrix state).leading 6

/-- The bias of the base. -/
noncomputable def baseBias (r : FloatingBody ℝ) (state : RobotState ℝ) : Vec ℝ :=
  (r.bias state).slice 0 6

/-- The base has the mass matrix of the body without its joints. -/
theorem baseMass_eq :
    r.baseMass state = ({ r with joints := [] } : FloatingBody ℝ).massMatrix state := by
  refine Mat.ext_entry rfl rfl fun i (hi : i < 6) j (hj : j < 6) => ?_
  rw [baseMass, Mat.leading, Mat.entry_ofFn_of_lt hi hj, entry_massMatrix, entry_massMatrix]
  have hno : ¬ (i = j ∧ 6 ≤ i) := by omega
  rw [if_neg hno, if_neg hno]
  rfl

/-- The mass matrix of a base has an inverse: the mass and the inertia of the body have. -/
theorem exists_baseMass_inverse (hq : Quaternion.ofVec state.q 3 ≠ ⟨0, 0, 0, 0⟩)
    (hmass : 0 < r.mass) (hinertia : r.inertia.IsInvertible) :
    ∃ K : Mat ℝ, r.baseMass state * K = .identity 6 ∧ K * r.baseMass state = .identity 6 := by
  obtain ⟨inverse, hright, hleft⟩ := hinertia
  let dual : FloatingBody ℝ := { r with mass := r.mass⁻¹, inertia := inverse, joints := [] }
  rw [baseMass_eq]
  exact ⟨dual.massMatrix state, massMatrix_mul hq rfl rfl (mul_inv_cancel₀ hmass.ne') hright,
    massMatrix_mul hq rfl rfl (inv_mul_cancel₀ hmass.ne') hleft⟩

/-- The base takes no part in the motion of the joints. -/
theorem mulVec_massMatrix_base {v : Vec ℝ} {i : ℕ} (hi : i < 6) :
    ((r.massMatrix state).mulVec v).entry i =
      ((r.baseMass state).mulVec (v.slice 0 6)).entry i := by
  have hcols : (r.massMatrix state).cols = 6 + r.joints.length := rfl
  have hbase : (r.baseMass state).cols = 6 := rfl
  have hzero (j : ℕ) (hj : ¬ (0 ≤ j ∧ j < 0 + 6)) : (r.massMatrix state).entry i j = 0 := by
    rw [entry_massMatrix, if_neg (by omega), if_neg (by omega), if_neg (by omega)]
  rw [Mat.entry_mulVec_of_window (by omega) hzero, Mat.entry_mulVec, hbase]
  refine sum_congr rfl fun j hj => ?_
  have hj : j < 6 := mem_range.1 hj
  rw [Vec.entry_slice hj, baseMass, Mat.leading, Mat.entry_ofFn_of_lt hi hj, Nat.zero_add]

/-- Without actuators and contacts the base falls freely. -/
theorem forall_rowHolds_base_iff {K : Mat ℝ} {z : Decision} (hfree : r.baseActuated = false)
    (hright : r.baseMass state * K = .identity 6) (hleft : K * r.baseMass state = .identity 6) :
    (∀ j < 6, r.RowHolds state [] z j) ↔
      z.accelerations.slice 0 6 = -K.mulVec (r.baseBias state) := by
  have hrow (j : ℕ) (hj : j < 6) : r.RowHolds state [] z j ↔
      ((r.baseMass state).mulVec (z.accelerations.slice 0 6)).entry j =
        (-r.baseBias state).entry j := by
    have hcontact : (r.tickData state []).contactTorque z j = 0 := rfl
    rw [RowHolds, mulVec_massMatrix_base hj, mulVec_actuation_base hj, hfree, hcontact,
      Vec.entry_neg, baseBias, Vec.entry_slice hj, Nat.zero_add, if_neg Bool.false_ne_true,
      add_zero, eq_neg_iff_add_eq_zero]
  have hsize : (-r.baseBias state).size = 6 := (Vec.size_neg _).trans (Vec.size_slice _ _ _)
  rw [← Mat.mulVec_neg_right, ← Mat.mulVec_eq_iff hright hleft (Vec.size_slice _ _ _) hsize]
  constructor
  · intro h
    exact Vec.ext_entry ((Mat.size_mulVec _ _).trans hsize.symm) fun j hj =>
      (hrow j (hj.trans_eq (Mat.size_mulVec _ _))).1 (h j (hj.trans_eq (Mat.size_mulVec _ _)))
  · exact fun h j hj => (hrow j hj).2 (congrArg (Vec.entry · j) h)

end FloatingBody

end WholeBody
