import Mathlib
import WholeBody.Proofs.Linear.PosDef
import WholeBody.Proofs.Linear.Vec3
import WholeBody.Proofs.Robot.Inverse
import WholeBody.Proofs.Robot.Kinematics

/-!
# The energy of a floating body

The mass matrix of a floating body is positive definite, and the only work of the bias is that of
the weight: the gyroscopic torque `ω × I ω` is at right angles to `ω`. Along every motion the
kinetic energy `½ vᵀ M v` and the energy `m g z` of the weight together change at the rate
`vᵀ (M v̇ + c)`. The inertia turns with the body, but seen from the body it is constant, and so is
the rate of the angular velocity: `d(Rᵀ ω)/dt = Rᵀ ω̇`.

## Main definitions

* `FloatingBody.inBody` — a vector of the world, seen from the body.

## Main statements

* `FloatingBody.dot_mulVec_massMatrix` — the kinetic energy, part by part.
* `FloatingBody.isPosDef_massMatrix` — the mass matrix.
* `FloatingBody.dot_bias` — the work of the bias.
* `FloatingBody.MovesAlong.hasRate_inBody` — what a vector of the world does, seen from the body.
* `dynamics_physical` — all of it, and the energy along every motion.
-/

namespace WholeBody

open Finset

namespace FloatingBody

variable {r : FloatingBody ℝ} {state : RobotState ℝ} {v w : Vec ℝ}

/-! ### Seen from the body -/

/-- A vector of the world, seen from the body. -/
noncomputable def inBody (state : RobotState ℝ) (u : Vec3 ℝ) : Vec3 ℝ :=
  (orientation state).toMat3.transpose.mulVec u

/-- Seen from the body, the inertia in world frame is that of the body. -/
theorem dot_mulVec_worldInertia (u u' : Vec3 ℝ) : u.dot ((r.worldInertia state).mulVec u') =
    (inBody state u).dot (r.inertia.mulVec (inBody state u')) := by
  rw [worldInertia, Mat3.mulVec_mul, Mat3.mulVec_mul, Mat3.dot_mulVec]
  rfl

theorem inBody_ne_zero (hq : Quaternion.ofVec state.q 3 ≠ ⟨0, 0, 0, 0⟩) {u : Vec3 ℝ} (hu : u ≠ 0) :
    inBody state u ≠ 0 := by
  intro hzero
  have hunit : (orientation state).normSq = 1 := Quaternion.normSq_normalize hq
  have hback : (orientation state).toMat3.mulVec (inBody state u) = u := by
    rw [inBody, Quaternion.mulVec_toMat3_transpose, hunit, one_pow, Vec3.one_smul]
  apply hu
  rw [← hback, hzero]
  simp [Mat3.mulVec, Vec3.dot_eq, Vec3.zero_def]

/-- Each component is the product with an axis of the body. -/
theorem inBody_eq (hq : Quaternion.ofVec state.q 3 ≠ ⟨0, 0, 0, 0⟩) (u : Vec3 ℝ) :
    inBody state u = ⟨((orientation state).rotate .unitX).dot u,
      ((orientation state).rotate .unitY).dot u, ((orientation state).rotate .unitZ).dot u⟩ := by
  have hunit : (orientation state).normSq = 1 := Quaternion.normSq_normalize hq
  simp [inBody, Quaternion.rotate_eq_mulVec hunit, Mat3.mulVec, Mat3.transpose, Vec3.dot_eq,
    Vec3.unitX, Vec3.unitY, Vec3.unitZ]

/-! ### The kinetic energy -/

/-- The velocities are those of the base and those of the joints. -/
theorem sum_velocities (f : ℕ → ℝ) : ∑ i ∈ range r.numVelocities, f i =
    ∑ i ∈ range 3, f i + ∑ i ∈ range 3, f (3 + i) + ∑ k ∈ range r.joints.length, f (6 + k) := by
  have hnv : r.numVelocities = 3 + 3 + r.joints.length := rfl
  rw [hnv, sum_range_add, sum_range_add]

/-- The product of two motions under the mass matrix: the mass, the inertia and the rotors. -/
theorem dot_mulVec_massMatrix (hv : v.size = r.numVelocities) :
    v.dot ((r.massMatrix state).mulVec w) =
      r.mass * (Vec3.ofVec v 0).dot (.ofVec w 0) +
        (inBody state (.ofVec v 3)).dot (r.inertia.mulVec (inBody state (.ofVec w 3))) +
        ∑ k ∈ range r.joints.length, r.rotorInertia k * (v.entry (6 + k) * w.entry (6 + k)) := by
  have hforce : ∑ i ∈ range 3, v.entry i * ((r.massMatrix state).mulVec w).entry i =
      r.mass * (Vec3.ofVec v 0).dot (.ofVec w 0) := by
    rw [← Vec3.sum_component, mul_sum]
    refine sum_congr rfl fun i hi => ?_
    have hi : i < 3 := mem_range.1 hi
    rw [mulVec_massMatrix_force hi, Vec3.component_ofVec 0 hi, Vec3.component_ofVec 0 hi,
      Nat.zero_add]
    ring
  have htorque :
      ∑ i ∈ range 3, v.entry (3 + i) * ((r.massMatrix state).mulVec w).entry (3 + i) =
        (Vec3.ofVec v 3).dot ((r.worldInertia state).mulVec (.ofVec w 3)) := by
    rw [← Vec3.sum_component]
    refine sum_congr rfl fun i hi => ?_
    have hi : i < 3 := mem_range.1 hi
    rw [mulVec_massMatrix_torque hi, Vec3.component_ofVec 3 hi]
  have hjoints : ∑ k ∈ range r.joints.length,
      v.entry (6 + k) * ((r.massMatrix state).mulVec w).entry (6 + k) =
        ∑ k ∈ range r.joints.length, r.rotorInertia k * (v.entry (6 + k) * w.entry (6 + k)) := by
    refine sum_congr rfl fun k hk => ?_
    have hk : k < r.joints.length := mem_range.1 hk
    rw [mulVec_massMatrix_joint hk, rotorInertia_eq hk]
    ring
  rw [Vec.dot_eq_sum, hv, sum_velocities, hforce, htorque, hjoints, dot_mulVec_worldInertia]

theorem isSymmetric_massMatrix (hinertia : r.inertia.transpose = r.inertia) :
    (r.massMatrix state).IsSymmetric := by
  have hworld : (r.worldInertia state).transpose = r.worldInertia state := by
    rw [worldInertia, Mat3.transpose_mul, Mat3.transpose_mul, Mat3.transpose_transpose, hinertia,
      Mat3.mul_assoc]
  intro i j
  rw [entry_massMatrix, entry_massMatrix]
  refine if_congr (by omega) (Mat3.isSymmetric_toMat hworld _ _)
    (if_congr (by omega) (Mat.isSymmetric_scalarMatrix _ _ _ _) ?_)
  by_cases hij : i = j
  · rw [hij]
  · rw [if_neg (not_and_of_not_left _ hij), if_neg (not_and_of_not_left _ (Ne.symm hij))]

/-- Some part of the body takes part in every motion. -/
theorem isPosDef_massMatrix (hq : Quaternion.ofVec state.q 3 ≠ ⟨0, 0, 0, 0⟩) (hmass : 0 < r.mass)
    (hinertia : r.inertia.IsPosDef) (hjoints : ∀ j ∈ r.joints, 0 < j.inertia) :
    (r.massMatrix state).IsPosDef := by
  refine ⟨isSymmetric_massMatrix hinertia.symmetric, fun v hover hne => ?_⟩
  obtain ⟨i, hi⟩ := hne
  have hv : v.size = 6 + r.joints.length := hover.1.symm
  have hlt : i < 6 + r.joints.length := by
    by_contra hout
    exact hi (Vec.entry_of_size_le (by omega))
  let spin := inBody state (.ofVec v 3)
  have hlinear : 0 ≤ r.mass * (Vec3.ofVec v 0).dot (.ofVec v 0) :=
    mul_nonneg hmass.le (Vec3.dot_self_nonneg _)
  have hspin : 0 ≤ spin.dot (r.inertia.mulVec spin) := hinertia.form_nonneg spin
  have hrotor {k : ℕ} (hk : k < r.joints.length) : 0 < r.rotorInertia k := by
    rw [rotorInertia_eq hk]
    exact hjoints _ (List.getElem_mem hk)
  have hterm : ∀ k ∈ range r.joints.length,
      0 ≤ r.rotorInertia k * (v.entry (6 + k) * v.entry (6 + k)) := by
    intro k hk
    exact mul_nonneg (hrotor (mem_range.1 hk)).le (mul_self_nonneg _)
  have hrotors := sum_nonneg hterm
  rw [Mat.form, dot_mulVec_massMatrix hv]
  -- The base moves, or it turns, or the rotor of a joint does.
  by_cases hi3 : i < 3
  · have hmoves : Vec3.ofVec v 0 ≠ 0 := Vec3.ofVec_ne_zero hi3 (by rwa [Nat.zero_add])
    have hpos := mul_pos hmass (Vec3.dot_self_pos hmoves)
    linarith
  · by_cases hi6 : i < 6
    · obtain ⟨k, rfl⟩ := Nat.exists_eq_add_of_le (Nat.le_of_not_lt hi3)
      have hturns : Vec3.ofVec v 3 ≠ 0 := Vec3.ofVec_ne_zero (by omega) hi
      have hpos := hinertia.form_pos spin (inBody_ne_zero hq hturns)
      linarith
    · obtain ⟨k, rfl⟩ := Nat.exists_eq_add_of_le (Nat.le_of_not_lt hi6)
      have hk : k < r.joints.length := by omega
      have hpos := mul_pos (hrotor hk) (mul_self_pos.2 hi)
      have hsum := single_le_sum hterm (mem_range.2 hk)
      linarith

/-! ### The work of the bias -/

/-- Only the weight does work: the gyroscopic torque is at right angles to the angular velocity. -/
theorem dot_bias (hv : state.v.size = r.numVelocities) :
    state.v.dot (r.bias state) = r.mass * r.gravity * state.v.entry 2 := by
  let torque :=
    (angularVelocity state).cross ((r.worldInertia state).mulVec (angularVelocity state))
  have hnv : r.numVelocities = 6 + r.joints.length := rfl
  have hforce : ∑ i ∈ range 3, state.v.entry i * (r.bias state).entry i =
      r.mass * r.gravity * state.v.entry 2 := by
    rw [sum_range_succ, sum_range_succ, sum_range_one, entry_bias_force (by decide),
      entry_bias_force (by decide), entry_bias_force (by decide)]
    simp only [Vec3.component, Vec3.unitZ]
    ring
  have htorque : ∑ i ∈ range 3, state.v.entry (3 + i) * (r.bias state).entry (3 + i) = 0 := by
    have hwork : (angularVelocity state).dot torque = 0 := by
      rw [Vec3.dot_comm, Vec3.cross_dot_self]
    rw [← hwork, ← Vec3.sum_component]
    refine sum_congr rfl fun i hi => ?_
    have hi : i < 3 := mem_range.1 hi
    rw [entry_bias_torque (by omega), ← Vec3.component_ofVec 3 hi]
    rfl
  have hjoints : ∑ k ∈ range r.joints.length,
      state.v.entry (6 + k) * (r.bias state).entry (6 + k) = 0 := by
    refine sum_eq_zero fun k hk => ?_
    have hk : k < r.joints.length := mem_range.1 hk
    have hnone : (r.bias state).entry (3 + (k + 3)) = 0 := entry_bias_torque (by omega)
    rw [show 6 + k = 3 + (k + 3) by omega, hnone, mul_zero]
  rw [Vec.dot_eq_sum, hv, sum_velocities, hforce, htorque, hjoints, add_zero, add_zero]

/-! ### Motions -/

namespace MovesAlong

variable {times : Set ℝ} {s : ℝ → RobotState ℝ} {vdot : ℝ → Vec ℝ} {t : ℝ}
  (h : r.MovesAlong times s vdot) (ht : t ∈ times)

include h ht

/-- A vector of the world, seen from the body, turns against the body. -/
theorem hasRate_inBody {u : ℝ → Vec3 ℝ} {u' : Vec3 ℝ} (hu : Vec3.HasRate u u' times t) :
    Vec3.HasRate (fun τ => inBody (s τ) (u τ))
      (inBody (s t) (u' + (u t).cross (angularVelocity (s t)))) times t := by
  have haxis (axis : Vec3 ℝ) :
      HasDerivWithinAt (fun τ => ((orientation (s τ)).rotate axis).dot (u τ))
        (((orientation (s t)).rotate axis).dot (u' + (u t).cross (angularVelocity (s t))))
        times t := by
    refine ((h.hasRate_arm ht axis).dot hu).congr_deriv ?_
    simp only [Vec3.dot_eq, Vec3.cross, Vec3.add_def]
    ring
  have hcomponents : Vec3.HasRate (fun τ => ⟨((orientation (s τ)).rotate .unitX).dot (u τ),
      ((orientation (s τ)).rotate .unitY).dot (u τ), ((orientation (s τ)).rotate .unitZ).dot (u τ)⟩)
      (inBody (s t) (u' + (u t).cross (angularVelocity (s t)))) times t := by
    rw [inBody_eq (h.quaternion_ne t ht)]
    exact ⟨haxis .unitX, haxis .unitY, haxis .unitZ⟩
  exact hcomponents.congr (fun τ hτ => inBody_eq (h.quaternion_ne τ hτ) _) ht

/-- Seen from the body, the angular velocity changes as it does in the world. -/
theorem hasRate_inBody_angular :
    Vec3.HasRate (fun τ => inBody (s τ) (angularVelocity (s τ)))
      (inBody (s t) (.ofVec (vdot t) 3)) times t := by
  have hrate := h.hasRate_inBody ht (h.hasRate_angular ht)
  rwa [Vec3.cross_self, Vec3.add_zero] at hrate

/-- The kinetic energy changes at the rate `vᵀ M v̇`: what the turning of the inertia adds to it is
nothing. -/
theorem hasDerivWithinAt_kinetic (hinertia : r.inertia.transpose = r.inertia) :
    HasDerivWithinAt (fun τ => (s τ).v.dot ((r.massMatrix (s τ)).mulVec (s τ).v) / 2)
      ((s t).v.dot ((r.massMatrix (s t)).mulVec (vdot t))) times t := by
  have hmass := ((h.hasRate_linear ht).dot (h.hasRate_linear ht)).const_mul r.mass
  have hbody := h.hasRate_inBody_angular ht
  have hturning := hbody.dot (hbody.const_mulVec r.inertia)
  have hrotor (k : ℕ) (hk : k ∈ range r.joints.length) :
      HasDerivWithinAt (fun τ => r.rotorInertia k * ((s τ).v.entry (6 + k) * (s τ).v.entry (6 + k)))
        (r.rotorInertia k * ((vdot t).entry (6 + k) * (s t).v.entry (6 + k) +
          (s t).v.entry (6 + k) * (vdot t).entry (6 + k))) times t := by
    have hrate := h.velocity t ht (6 + k) (Nat.add_lt_add_left (mem_range.1 hk) 6)
    exact (hrate.mul hrate).const_mul (r.rotorInertia k)
  have hparts := ((hmass.add hturning).add (HasDerivWithinAt.fun_sum hrotor)).div_const 2
  refine (hparts.congr (fun τ hτ => ?_) ?_).congr_deriv ?_
  · rw [dot_mulVec_massMatrix (h.size τ hτ).2]
    rfl
  · rw [dot_mulVec_massMatrix (h.size t ht).2]
    rfl
  · have hlinear : (Vec3.ofVec (vdot t) 0).dot (.ofVec (s t).v 0) =
        (Vec3.ofVec (s t).v 0).dot (.ofVec (vdot t) 0) := Vec3.dot_comm _ _
    have hspin (b b' : Vec3 ℝ) : b'.dot (r.inertia.mulVec b) = b.dot (r.inertia.mulVec b') := by
      rw [Mat3.dot_mulVec, hinertia, Vec3.dot_comm]
    have hrotors : ∑ k ∈ range r.joints.length, r.rotorInertia k *
        ((vdot t).entry (6 + k) * (s t).v.entry (6 + k) +
          (s t).v.entry (6 + k) * (vdot t).entry (6 + k)) =
        2 * ∑ k ∈ range r.joints.length,
          r.rotorInertia k * ((s t).v.entry (6 + k) * (vdot t).entry (6 + k)) := by
      rw [mul_sum]
      exact sum_congr rfl fun k _ => by ring
    rw [dot_mulVec_massMatrix (h.size t ht).2, hlinear, hspin, hrotors]
    simp only [angularVelocity]
    ring

/-- The kinetic energy and the energy of the weight change at the rate of the power of `M v̇ + c`. -/
theorem hasDerivWithinAt_energy (hinertia : r.inertia.transpose = r.inertia) :
    HasDerivWithinAt (fun τ => (s τ).v.dot ((r.massMatrix (s τ)).mulVec (s τ).v) / 2 +
        r.mass * r.gravity * (FloatingBody.position (s τ)).z)
      ((s t).v.dot ((r.massMatrix (s t)).mulVec (vdot t) + r.bias (s t))) times t := by
  have hweight := (h.position t ht).z.const_mul (r.mass * r.gravity)
  refine ((h.hasDerivWithinAt_kinetic ht hinertia).add hweight).congr_deriv ?_
  have hsize : (r.bias (s t)).size ≤ ((r.massMatrix (s t)).mulVec (vdot t)).size := by
    rw [bias, Vec.size_ofFn, Mat.size_mulVec]
    rfl
  rw [Vec.dot_add hsize, dot_bias (h.size t ht).2]
  rfl

end MovesAlong

end FloatingBody

/-- The dynamics of a floating body are physical. In every state of the right size whose quaternion
is not zero the mass matrix is positive definite, so it has an inverse, and the bias does no work but
that of the weight. Along every motion the kinetic energy and the energy of the weight together
change at the rate of the power of `M v̇ + c`. -/
theorem dynamics_physical {r : FloatingBody ℝ} (hmass : 0 < r.mass) (hinertia : r.inertia.IsPosDef)
    (hjoints : ∀ j ∈ r.joints, 0 < j.inertia) :
    (∀ s : RobotState ℝ, s.q.size = r.numPositions → s.v.size = r.numVelocities →
      Quaternion.ofVec s.q 3 ≠ ⟨0, 0, 0, 0⟩ →
      ∃ M c, r.model.massMatrix s = .ok M ∧ r.model.bias s = .ok c ∧
        (M.rows = r.numVelocities ∧ M.cols = r.numVelocities ∧ c.size = r.numVelocities) ∧
        M.IsPosDef ∧ M.IsInvertible ∧ s.v.dot c = r.mass * r.gravity * s.v.entry 2) ∧
    ∀ {times : Set ℝ} {s : ℝ → RobotState ℝ} {vdot : ℝ → Vec ℝ}, r.MovesAlong times s vdot →
      ∃ (M : ℝ → Mat ℝ) (c : ℝ → Vec ℝ), ∀ t ∈ times,
        r.model.massMatrix (s t) = .ok (M t) ∧ r.model.bias (s t) = .ok (c t) ∧
        HasDerivWithinAt (fun τ => (s τ).v.dot ((M τ).mulVec (s τ).v) / 2 +
            r.mass * r.gravity * (FloatingBody.position (s τ)).z)
          ((s t).v.dot ((M t).mulVec (vdot t) + c t)) times t := by
  have hanswers {s : RobotState ℝ} (hsize : s.q.size = r.numPositions ∧ s.v.size = r.numVelocities) :
      r.model.massMatrix s = .ok (r.massMatrix s) ∧ r.model.bias s = .ok (r.bias s) := by
    have hcheck : r.check s = .ok () := if_pos hsize
    simp only [FloatingBody.model, hcheck]
    exact ⟨rfl, rfl⟩
  constructor
  · intro s hqsize hvsize hq
    obtain ⟨hM, hc⟩ := hanswers ⟨hqsize, hvsize⟩
    have hpos := FloatingBody.isPosDef_massMatrix hq hmass hinertia hjoints
    exact ⟨r.massMatrix s, r.bias s, hM, hc, ⟨rfl, rfl, Vec.size_ofFn _ _⟩, hpos,
      hpos.isInvertible rfl, FloatingBody.dot_bias hvsize⟩
  · intro times s vdot h
    refine ⟨fun τ => r.massMatrix (s τ), fun τ => r.bias (s τ), fun t ht => ?_⟩
    obtain ⟨hM, hc⟩ := hanswers (h.size t ht)
    exact ⟨hM, hc, h.hasDerivWithinAt_energy ht hinertia.symmetric⟩

/-- A body that falls freely, spins around its vertical axis and speeds up its wheel. -/
theorem dynamics_physical_falling :
    let r : FloatingBody ℝ :=
      ⟨"base", 2, .diagonal ⟨1, 2, 3⟩, 10, false, [⟨"wheel", 3⟩], none, none⟩
    let s (t : ℝ) : RobotState ℝ :=
      ⟨.ofList [0, 0, -5 * t ^ 2, Real.cos t, 0, 0, Real.sin t, 0],
        .ofList [0, 0, -10 * t, 0, 0, 2, t]⟩
    let vdot (_ : ℝ) : Vec ℝ := .ofList [0, 0, -10, 0, 0, 0, 1]
    r.MovesAlong Set.univ s vdot ∧
      ∃ (M : ℝ → Mat ℝ) (c : ℝ → Vec ℝ), ∀ t,
        r.model.massMatrix (s t) = .ok (M t) ∧ r.model.bias (s t) = .ok (c t) ∧
        (M t).IsPosDef ∧ (M t).IsInvertible ∧ (s t).v.dot (c t) = 2 * 10 * (-10 * t) ∧
        HasDerivWithinAt (fun τ => (s τ).v.dot ((M τ).mulVec (s τ).v) / 2 + 2 * 10 * (-5 * τ ^ 2))
          ((s t).v.dot ((M t).mulVec (vdot t) + c t)) Set.univ t := by
  intro r s vdot
  have hupright (t : ℝ) : Quaternion.ofVec (s t).q 3 ≠ ⟨0, 0, 0, 0⟩ := by
    intro hne
    have hcos : Real.cos t = 0 := congrArg Quaternion.w hne
    have hsin : Real.sin t = 0 := congrArg Quaternion.z hne
    have hone := Real.cos_sq_add_sin_sq t
    rw [hcos, hsin] at hone
    norm_num at hone
  have hmoves : r.MovesAlong Set.univ s vdot := by
    have hconst (x t : ℝ) : HasDerivWithinAt (fun _ : ℝ => x) 0 Set.univ t :=
      hasDerivWithinAt_const ..
    have hid (t : ℝ) : HasDerivWithinAt (fun τ : ℝ => τ) 1 Set.univ t := hasDerivWithinAt_id ..
    have hspeed (t : ℝ) : HasDerivWithinAt (fun τ : ℝ => -10 * τ) (-10) Set.univ t :=
      ((hid t).const_mul (-10)).congr_deriv (mul_one _)
    have hheight (t : ℝ) : HasDerivWithinAt (fun τ : ℝ => -5 * τ ^ 2) (-10 * t) Set.univ t := by
      refine ((hasDerivWithinAt_pow 2 t).const_mul (-5)).congr_deriv ?_
      ring
    refine ⟨fun t _ => ⟨rfl, rfl⟩, fun t _ => ⟨hconst 0 t, hconst 0 t, hheight t⟩,
      fun t _ => hupright t, fun t _ => ⟨?_, ?_, ?_, ?_⟩, fun t _ i hi => ?_⟩
    · refine (hid t).cos.congr_deriv ?_
      rw [Quaternion.spin_eq]
      change -Real.sin t * 1 = (-(0 * 0) - 0 * 0 - 2 * Real.sin t) / 2
      ring
    · refine (hconst 0 t).congr_deriv ?_
      rw [Quaternion.spin_eq]
      change 0 = (0 * Real.cos t + 0 * Real.sin t - 2 * 0) / 2
      ring
    · refine (hconst 0 t).congr_deriv ?_
      rw [Quaternion.spin_eq]
      change 0 = (0 * Real.cos t + 2 * 0 - 0 * Real.sin t) / 2
      ring
    · refine (hid t).sin.congr_deriv ?_
      rw [Quaternion.spin_eq]
      change Real.cos t * 1 = (2 * Real.cos t + 0 * 0 - 0 * 0) / 2
      ring
    · have hi : i < 7 := hi
      interval_cases i
      · exact hconst 0 t
      · exact hconst 0 t
      · exact hspeed t
      · exact hconst 0 t
      · exact hconst 0 t
      · exact hconst 2 t
      · exact hid t
  have hinertia : r.inertia.IsPosDef := by
    refine ⟨rfl, fun v hv => ?_⟩
    have hform : v.dot (r.inertia.mulVec v) = v.dot v + v.y * v.y + 2 * (v.z * v.z) := by
      simp only [r, Mat3.mulVec, Mat3.diagonal, Vec3.dot_eq]
      ring
    rw [hform]
    linarith [Vec3.dot_self_pos hv, mul_self_nonneg v.y, mul_self_nonneg v.z]
  have hjoints : ∀ j ∈ r.joints, 0 < j.inertia := by simp [r]
  obtain ⟨hstates, hmotions⟩ := dynamics_physical (r := r) two_pos hinertia hjoints
  obtain ⟨M, c, henergy⟩ := hmotions hmoves
  refine ⟨hmoves, M, c, fun t => ?_⟩
  obtain ⟨hM, hc, hderiv⟩ := henergy t trivial
  obtain ⟨M', c', hM', hc', -, hpos, hinv, hwork⟩ := hstates (s t) rfl rfl (hupright t)
  obtain rfl : M t = M' := Except.ok.inj (hM.symm.trans hM')
  obtain rfl : c t = c' := Except.ok.inj (hc.symm.trans hc')
  exact ⟨hM, hc, hpos, hinv, hwork, hderiv⟩

end WholeBody
