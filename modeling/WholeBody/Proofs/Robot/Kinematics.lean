import Mathlib
import WholeBody.Proofs.Linear.Rate
import WholeBody.Proofs.Program.Rows
import WholeBody.Robot.FloatingBody

/-!
# Kinematics of a moving body

What a Jacobian promises: along every motion of the robot, `J v` is the velocity of its point or
frame, and `J v̇ + J̇ v` the acceleration. For a floating body both are derivatives of what its
kinematics answer, with the quaternion normalized and its offset turned.

## Main definitions

* `Jacobian3.apply` — the velocity `J v`.
* `FloatingBody.MovesAlong` — a motion of a floating body.
* `PointKinematics.Differentiates` — the promise of a Jacobian.

## Main statements

* `Jacobian3.apply_ofBlocks` — a Jacobian of two blocks.
* `kinematics_differentiate` — points, the center of mass and frames of a floating body.
-/

namespace WholeBody

open Finset

/-! ### Jacobians -/

/-- The velocity that a Jacobian gives. -/
def Jacobian3.apply {α : Type} [Scalar α] (jacobian : Jacobian3 α) (v : Vec α) : Vec3 α :=
  .ofVec (jacobian.toMat.mulVec v) 0

/-- A Jacobian of two blocks gives what they give for the linear and the angular velocity. -/
theorem Jacobian3.apply_ofBlocks {cols : ℕ} (hcols : 6 ≤ cols) (linear angular : Mat3 ℝ)
    (v : Vec ℝ) :
    (ofBlocks cols linear angular).apply v =
      linear.mulVec (.ofVec v 0) + angular.mulVec (.ofVec v 3) := by
  have hwidth : (ofBlocks cols linear angular).toMat.cols = cols := List.length_ofFn
  have hzero (i j : ℕ) (hj : ¬ (0 ≤ j ∧ j < 0 + 6)) :
      (ofBlocks cols linear angular).toMat.entry i j = 0 := by
    rw [entry_toMat, getD_ofBlocks hcols, if_neg (by omega), if_neg (by omega), Vec3.component_zero]
  have hentry (i : ℕ) : ((ofBlocks cols linear angular).toMat.mulVec v).entry i =
      ∑ l ∈ range 6, (if l < 3 then linear.col l else if l < 6 then angular.col (l - 3)
        else 0).component i * v.entry l := by
    rw [Mat.entry_mulVec_of_window (hwidth.symm ▸ hcols) (hzero i)]
    simp only [Nat.zero_add, entry_toMat, getD_ofBlocks hcols]
  refine Vec3.ext_component fun k hk => ?_
  rw [apply, Vec3.component_ofVec 0 hk, hentry, Vec3.component_add]
  interval_cases k
  all_goals
    simp [sum_range_succ, Mat3.col, Vec3.component, Mat3.mulVec, Vec3.dot_eq,
      Vec3.ofVec]
    ring

/-- The promise of the kinematics of a point at a time of a motion: its Jacobian gives the velocity,
and with the drift the acceleration. -/
structure PointKinematics.Differentiates (kin : ℝ → PointKinematics ℝ) (v vdot : ℝ → Vec ℝ)
    (times : Set ℝ) (t : ℝ) : Prop where
  velocity : Vec3.HasRate (fun τ => (kin τ).position) ((kin t).jacobian.apply (v t)) times t
  acceleration : Vec3.HasRate (fun τ => (kin τ).jacobian.apply (v τ))
    ((kin t).jacobian.apply (vdot t) + (kin t).jdotV) times t

/-- The promise of the kinematics of a frame: its Jacobian gives the angular velocity, with which the
orientation spins, and with the drift the angular acceleration. -/
structure FrameKinematics.Differentiates (kin : ℝ → FrameKinematics ℝ) (v vdot : ℝ → Vec ℝ)
    (times : Set ℝ) (t : ℝ) : Prop where
  spin : Quaternion.HasRate (fun τ => (kin τ).orientation)
    (Quaternion.spin ((kin t).jacobian.apply (v t)) (kin t).orientation) times t
  acceleration : Vec3.HasRate (fun τ => (kin τ).jacobian.apply (v τ))
    ((kin t).jacobian.apply (vdot t) + (kin t).jdotV) times t

namespace FloatingBody

variable {r : FloatingBody ℝ} {times : Set ℝ} {s : ℝ → RobotState ℝ} {vdot : ℝ → Vec ℝ} {t : ℝ}

/-- A motion of a floating body over the given times: the base moves with its linear velocity, its
quaternion spins with its angular velocity, and the velocities change at the rate `vdot`. -/
structure MovesAlong (r : FloatingBody ℝ) (times : Set ℝ) (s : ℝ → RobotState ℝ)
    (vdot : ℝ → Vec ℝ) : Prop where
  size : ∀ t ∈ times, (s t).q.size = r.numPositions ∧ (s t).v.size = r.numVelocities
  position : ∀ t ∈ times,
    Vec3.HasRate (fun τ => position (s τ)) (.ofVec (s t).v 0) times t
  quaternion_ne : ∀ t ∈ times, Quaternion.ofVec (s t).q 3 ≠ ⟨0, 0, 0, 0⟩
  quaternion : ∀ t ∈ times, Quaternion.HasRate (fun τ => .ofVec (s τ).q 3)
    (.spin (angularVelocity (s t)) (.ofVec (s t).q 3)) times t
  velocity : ∀ t ∈ times, ∀ i < r.numVelocities,
    HasDerivWithinAt (fun τ => (s τ).v.entry i) ((vdot t).entry i) times t

namespace MovesAlong

variable (h : r.MovesAlong times s vdot) (ht : t ∈ times)

include h ht

theorem check_eq_ok : r.check (s t) = .ok () := if_pos (h.size t ht)

theorem hasRate_linear :
    Vec3.HasRate (fun τ => .ofVec (s τ).v 0) (.ofVec (vdot t) 0) times t := by
  have hnv : r.numVelocities = 6 + r.joints.length := rfl
  exact ⟨h.velocity t ht 0 (by omega), h.velocity t ht 1 (by omega), h.velocity t ht 2 (by omega)⟩

theorem hasRate_angular :
    Vec3.HasRate (fun τ => angularVelocity (s τ)) (.ofVec (vdot t) 3) times t := by
  have hnv : r.numVelocities = 6 + r.joints.length := rfl
  exact ⟨h.velocity t ht 3 (by omega), h.velocity t ht 4 (by omega), h.velocity t ht 5 (by omega)⟩

theorem hasRate_orientation : Quaternion.HasRate (fun τ => orientation (s τ))
    (.spin (angularVelocity (s t)) (orientation (s t))) times t :=
  (h.quaternion t ht).normalize (h.quaternion_ne t ht)

/-- The arm of a point of the body. -/
theorem hasRate_arm (offset : Vec3 ℝ) :
    Vec3.HasRate (fun τ => (orientation (s τ)).rotate offset)
      ((angularVelocity (s t)).cross ((orientation (s t)).rotate offset)) times t :=
  (h.hasRate_orientation ht).rotate (Quaternion.normSq_normalize (h.quaternion_ne t ht)) offset

/-! ### Points -/

theorem point_eq_ok {p : BodyPoint ℝ} (hp : p.body = r.body) :
    r.model.point (s t) p = .ok (r.pointKinematics (s t) p.offset) := by
  have hbody : r.checkBody p.body = .ok () := if_pos hp
  simp only [model, hbody, h.check_eq_ok ht]
  rfl

omit h ht in
/-- The velocity of a point: that of the base, and `ω × r`. -/
theorem apply_pointKinematics (state : RobotState ℝ) (offset : Vec3 ℝ) (v : Vec ℝ) :
    (r.pointKinematics state offset).jacobian.apply v =
      .ofVec v 0 + (Vec3.ofVec v 3).cross ((orientation state).rotate offset) := by
  have hcols : 6 ≤ r.numVelocities := Nat.le_add_right _ _
  refine (Jacobian3.apply_ofBlocks hcols _ _ v).trans ?_
  rw [Mat3.mulVec_identity, Mat3.mulVec_neg_skew]

theorem differentiates_point (offset : Vec3 ℝ) : PointKinematics.Differentiates
    (fun τ => r.pointKinematics (s τ) offset) (fun τ => (s τ).v) vdot times t := by
  have harm := h.hasRate_arm ht offset
  constructor
  · rw [apply_pointKinematics]
    exact (h.position t ht).add harm
  · simp only [apply_pointKinematics]
    rw [Vec3.add_assoc]
    exact (h.hasRate_linear ht).add ((h.hasRate_angular ht).cross harm)

end MovesAlong

/-! ### The center of mass and frames -/

/-- What a floating body answers for its center of mass. -/
noncomputable def centerKinematics (r : FloatingBody ℝ) (state : RobotState ℝ) : PointKinematics ℝ where
  position := position state
  jacobian := .ofBlocks r.numVelocities .identity .zero
  jdotV := 0

/-- What a floating body answers for its frame. -/
noncomputable def frameKinematics (r : FloatingBody ℝ) (state : RobotState ℝ) : FrameKinematics ℝ where
  orientation := orientation state
  jacobian := .ofBlocks r.numVelocities .zero .identity
  jdotV := 0

theorem apply_centerKinematics (state : RobotState ℝ) (v : Vec ℝ) :
    (r.centerKinematics state).jacobian.apply v = .ofVec v 0 := by
  have hcols : 6 ≤ r.numVelocities := Nat.le_add_right _ _
  refine (Jacobian3.apply_ofBlocks hcols _ _ v).trans ?_
  rw [Mat3.mulVec_identity, Mat3.mulVec_zero_matrix, Vec3.add_zero]

theorem apply_frameKinematics (state : RobotState ℝ) (v : Vec ℝ) :
    (r.frameKinematics state).jacobian.apply v = .ofVec v 3 := by
  have hcols : 6 ≤ r.numVelocities := Nat.le_add_right _ _
  refine (Jacobian3.apply_ofBlocks hcols _ _ v).trans ?_
  rw [Mat3.mulVec_identity, Mat3.mulVec_zero_matrix, Vec3.zero_add]

namespace MovesAlong

variable (h : r.MovesAlong times s vdot) (ht : t ∈ times)

include h ht

theorem centerOfMass_eq_ok : r.model.centerOfMass (s t) = .ok (r.centerKinematics (s t)) := by
  simp only [model, h.check_eq_ok ht]
  rfl

theorem frame_eq_ok : r.model.frame (s t) r.body = .ok (r.frameKinematics (s t)) := by
  have hbody : r.checkBody r.body = .ok () := if_pos rfl
  simp only [model, hbody, h.check_eq_ok ht]
  rfl

theorem differentiates_centerOfMass : PointKinematics.Differentiates
    (fun τ => r.centerKinematics (s τ)) (fun τ => (s τ).v) vdot times t := by
  constructor
  · rw [apply_centerKinematics]
    exact h.position t ht
  · simp only [apply_centerKinematics]
    exact (Vec3.add_zero _).symm ▸ h.hasRate_linear ht

theorem differentiates_frame : FrameKinematics.Differentiates
    (fun τ => r.frameKinematics (s τ)) (fun τ => (s τ).v) vdot times t := by
  constructor
  · rw [apply_frameKinematics]
    exact h.hasRate_orientation ht
  · simp only [apply_frameKinematics]
    exact (Vec3.add_zero _).symm ▸ h.hasRate_angular ht

end MovesAlong

end FloatingBody

/-- The kinematics of a floating body keep their promise along every motion. The body answers at all
times; the Jacobian of a point of the body and the one of the center of mass give the derivative of
the position, and with the drift the derivative of that velocity; the Jacobian of the frame gives the
angular velocity of the motion, with which the orientation spins, and with the drift its derivative. -/
theorem kinematics_differentiate {r : FloatingBody ℝ} {times : Set ℝ} {s : ℝ → RobotState ℝ}
    {vdot : ℝ → Vec ℝ} (h : r.MovesAlong times s vdot) :
    (∀ p : BodyPoint ℝ, p.body = r.body → ∃ kin : ℝ → PointKinematics ℝ, ∀ t ∈ times,
      r.model.point (s t) p = .ok (kin t) ∧
      PointKinematics.Differentiates kin (fun τ => (s τ).v) vdot times t) ∧
    (∃ kin : ℝ → PointKinematics ℝ, ∀ t ∈ times,
      r.model.centerOfMass (s t) = .ok (kin t) ∧
      PointKinematics.Differentiates kin (fun τ => (s τ).v) vdot times t) ∧
    ∃ kin : ℝ → FrameKinematics ℝ, ∀ t ∈ times,
      r.model.frame (s t) r.body = .ok (kin t) ∧
      (kin t).jacobian.apply (s t).v = .ofVec (s t).v 3 ∧
      FrameKinematics.Differentiates kin (fun τ => (s τ).v) vdot times t := by
  refine ⟨fun p hp => ⟨fun τ => r.pointKinematics (s τ) p.offset, fun t ht => ?_⟩,
    ⟨fun τ => r.centerKinematics (s τ), fun t ht => ?_⟩,
    ⟨fun τ => r.frameKinematics (s τ), fun t ht => ?_⟩⟩
  · exact ⟨h.point_eq_ok ht hp, h.differentiates_point ht p.offset⟩
  · exact ⟨h.centerOfMass_eq_ok ht, h.differentiates_centerOfMass ht⟩
  · exact ⟨h.frame_eq_ok ht, FloatingBody.apply_frameKinematics _ _, h.differentiates_frame ht⟩

/-- A body that speeds up along x and turns ever faster around its vertical axis, and the point one
unit in front of it. -/
theorem kinematics_differentiate_turning :
    let r : FloatingBody ℝ := ⟨"base", 1, .identity, 10, false, [⟨"wheel", 3⟩], none, none⟩
    let s (t : ℝ) : RobotState ℝ :=
      ⟨.ofList [t ^ 2 / 2, 0, 0, Real.cos (t ^ 2 / 4), 0, 0, Real.sin (t ^ 2 / 4), 0],
        .ofList [t, 0, 0, 0, 0, t, 0]⟩
    let vdot (_ : ℝ) : Vec ℝ := .ofList [1, 0, 0, 0, 0, 1, 0]
    r.MovesAlong Set.univ s vdot ∧
      ∃ kin : ℝ → PointKinematics ℝ, ∀ t ∈ Set.univ,
        r.model.point (s t) ⟨"base", ⟨1, 0, 0⟩⟩ = .ok (kin t) ∧
        PointKinematics.Differentiates kin (fun τ => (s τ).v) vdot Set.univ t := by
  intro r s vdot
  have hmoves : r.MovesAlong Set.univ s vdot := by
    have hzero (t : ℝ) : HasDerivWithinAt (fun _ : ℝ => (0 : ℝ)) 0 Set.univ t :=
      hasDerivWithinAt_const ..
    have hid (t : ℝ) : HasDerivWithinAt (fun τ : ℝ => τ) 1 Set.univ t := hasDerivWithinAt_id ..
    have hsquare (c t : ℝ) :
        HasDerivWithinAt (fun τ : ℝ => τ ^ 2 / c) (2 * t / c) Set.univ t := by
      refine ((hasDerivWithinAt_pow 2 t).div_const c).congr_deriv ?_
      ring
    refine ⟨fun t _ => ⟨rfl, rfl⟩, fun t _ => ⟨?_, hzero t, hzero t⟩, fun t _ hne => ?_,
      fun t _ => ⟨?_, ?_, ?_, ?_⟩, fun t _ i hi => ?_⟩
    · refine (hsquare 2 t).congr_deriv ?_
      change 2 * t / 2 = t
      ring
    · have hcos : Real.cos (t ^ 2 / 4) = 0 := congrArg Quaternion.w hne
      have hsin : Real.sin (t ^ 2 / 4) = 0 := congrArg Quaternion.z hne
      have hone := Real.cos_sq_add_sin_sq (t ^ 2 / 4)
      rw [hcos, hsin] at hone
      norm_num at hone
    · refine (hsquare 4 t).cos.congr_deriv ?_
      rw [Quaternion.spin_eq]
      change -Real.sin (t ^ 2 / 4) * (2 * t / 4) =
        (-(0 * 0) - 0 * 0 - t * Real.sin (t ^ 2 / 4)) / 2
      ring
    · refine (hzero t).congr_deriv ?_
      rw [Quaternion.spin_eq]
      change 0 = (0 * Real.cos (t ^ 2 / 4) + 0 * Real.sin (t ^ 2 / 4) - t * 0) / 2
      ring
    · refine (hzero t).congr_deriv ?_
      rw [Quaternion.spin_eq]
      change 0 = (0 * Real.cos (t ^ 2 / 4) + t * 0 - 0 * Real.sin (t ^ 2 / 4)) / 2
      ring
    · refine (hsquare 4 t).sin.congr_deriv ?_
      rw [Quaternion.spin_eq]
      change Real.cos (t ^ 2 / 4) * (2 * t / 4) =
        (t * Real.cos (t ^ 2 / 4) + 0 * 0 - 0 * 0) / 2
      ring
    · have hi : i < 7 := hi
      interval_cases i
      · exact hid t
      · exact hzero t
      · exact hzero t
      · exact hzero t
      · exact hzero t
      · exact hid t
      · exact hzero t
  exact ⟨hmoves, (kinematics_differentiate hmoves).1 _ rfl⟩

end WholeBody
