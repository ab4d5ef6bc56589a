import Mathlib
import WholeBody.Proofs.Linear.Rotation
import WholeBody.Proofs.Program.Equations
import WholeBody.Proofs.Robot.FloatingBody
import WholeBody.Proofs.Robot.Standing

/-!
# Newton and Euler

The rows of the equations of motion, read as vector mechanics: forces change the momentum of a body,
their torques about its center of mass change its spin, and each rotor follows its own motor.

## Main statements

* `FloatingBody.contactTorque_force`, `FloatingBody.contactTorque_torque` — what the contacts add up
  to.
* `newton_euler` — every solution of the equations of a tick.
-/

namespace WholeBody

open Finset

namespace FloatingBody

variable {r : FloatingBody ℝ} {state : RobotState ℝ} {contacts : List (ContactPoint ℝ)}

/-- The force of the base actuators. -/
noncomputable def baseForce (r : FloatingBody ℝ) (inputs : Vec ℝ) : Vec3 ℝ :=
  if r.baseActuated then .ofVec inputs 0 else 0

/-- The torque of the base actuators. -/
noncomputable def baseTorque (r : FloatingBody ℝ) (inputs : Vec ℝ) : Vec3 ℝ :=
  if r.baseActuated then .ofVec inputs 3 else 0

/-- The inertia of a rotor, zero for a joint that there is not. -/
noncomputable def rotorInertia (r : FloatingBody ℝ) (k : ℕ) : ℝ :=
  ((r.joints.map (·.inertia))[k]?).getD 0

theorem rotorInertia_eq {r : FloatingBody ℝ} {k : ℕ} (hk : k < r.joints.length) :
    r.rotorInertia k = r.joints[k].inertia := by
  simp [rotorInertia, hk]

/-! ### The mass matrix -/

/-- The mass matrix is made of the mass, the inertia in world frame and the rotors. -/
theorem entry_massMatrix (i j : ℕ) : (r.massMatrix state).entry i j =
    if 3 ≤ i ∧ i < 6 ∧ 3 ≤ j ∧ j < 6 then (r.worldInertia state).toMat.entry (i - 3) (j - 3)
    else if i < 3 ∧ j < 3 then (Mat.scalarMatrix 3 r.mass).entry i j
    else if i = j ∧ 6 ≤ i then ((r.joints.map (·.inertia))[i - 6]?).getD 0
    else 0 := by
  let rotors := Mat.diagonal r.numVelocities fun i =>
    if 6 ≤ i then ((r.joints.map (·.inertia))[i - 6]?).getD 0 else 0
  have hnv : 6 + r.joints.length = r.numVelocities := rfl
  have hrotors : rotors.entry i j =
      if i = j ∧ 6 ≤ i then ((r.joints.map (·.inertia))[i - 6]?).getD 0 else 0 := by
    simp only [rotors, Mat.diagonal, Mat.entry_ofFn]
    by_cases hi : i < r.numVelocities
    · by_cases hj : i = j <;> simp [hi, hj]
      omega
    · have hlast : (r.joints.map (·.inertia)).length ≤ i - 6 := by
        rw [List.length_map]
        omega
      simp [hi, List.getElem?_eq_none hlast]
  have hinner : 0 + 3 ≤ r.numVelocities := by omega
  have houter : 3 + 3 ≤ r.numVelocities := by omega
  refine (Mat.entry_setBlock (b := (r.worldInertia state).toMat) houter houter).trans ?_
  refine if_congr Iff.rfl rfl ?_
  refine (Mat.entry_setBlock (b := .scalarMatrix 3 r.mass) hinner hinner).trans ?_
  refine if_congr ?_ rfl hrotors
  change 0 ≤ i ∧ i < 0 + 3 ∧ 0 ≤ j ∧ j < 0 + 3 ↔ _
  omega

variable {v : Vec ℝ} {k : ℕ}

/-- The rows of the mass. -/
theorem mulVec_massMatrix_force (hk : k < 3) :
    ((r.massMatrix state).mulVec v).entry k = r.mass * v.entry k := by
  have hcols : (r.massMatrix state).cols = 6 + r.joints.length := rfl
  have hzero (j : ℕ) (hj : ¬ (k ≤ j ∧ j < k + 1)) : (r.massMatrix state).entry k j = 0 := by
    have hne : ¬ k = j := by omega
    rw [entry_massMatrix, if_neg (by omega), if_neg (not_and_of_not_left _ hne)]
    simp [Mat.scalarMatrix, hne]
  rw [Mat.entry_mulVec_of_window (by omega) hzero, sum_range_one, entry_massMatrix,
    if_neg (by omega), if_pos (by omega)]
  simp [Mat.scalarMatrix, hk]

/-- The rows of the inertia. -/
theorem mulVec_massMatrix_torque (hk : k < 3) : ((r.massMatrix state).mulVec v).entry (3 + k) =
    ((r.worldInertia state).mulVec (.ofVec v 3)).component k := by
  have hcols : (r.massMatrix state).cols = 6 + r.joints.length := rfl
  have hzero (j : ℕ) (hj : ¬ (3 ≤ j ∧ j < 3 + 3)) : (r.massMatrix state).entry (3 + k) j = 0 := by
    rw [entry_massMatrix, if_neg (by omega), if_neg (by omega), if_neg (by omega)]
  have hinertia : (r.worldInertia state).toMat.cols = 3 := rfl
  rw [Mat.entry_mulVec_of_window (by omega) hzero, ← Mat3.entry_mulVec_toMat _ _ hk,
    Mat.entry_mulVec, hinertia]
  refine sum_congr rfl fun j hj => ?_
  have hj3 := mem_range.1 hj
  rw [entry_massMatrix, if_pos (by omega), Nat.add_sub_cancel_left, Nat.add_sub_cancel_left,
    Vec3.entry_toVec, Vec3.component_ofVec 3 hj3]

/-- The row of a rotor. -/
theorem mulVec_massMatrix_joint (hk : k < r.joints.length) :
    ((r.massMatrix state).mulVec v).entry (6 + k) = r.joints[k].inertia * v.entry (6 + k) := by
  have hcols : (r.massMatrix state).cols = 6 + r.joints.length := rfl
  have hzero (j : ℕ) (hj : ¬ (6 + k ≤ j ∧ j < 6 + k + 1)) :
      (r.massMatrix state).entry (6 + k) j = 0 := by
    rw [entry_massMatrix, if_neg (by omega), if_neg (by omega), if_neg (by omega)]
  rw [Mat.entry_mulVec_of_window (by omega) hzero, sum_range_one, entry_massMatrix,
    if_neg (by omega), if_neg (by omega), if_pos (by omega)]
  simp [hk]

/-! ### The bias -/

/-- The weight. -/
theorem entry_bias_force (hk : k < 3) :
    (r.bias state).entry k = r.mass * (r.gravity * (Vec3.unitZ : Vec3 ℝ).component k) := by
  have hnv : 6 ≤ r.numVelocities := Nat.le_add_right _ _
  rw [bias, Vec.entry_ofFn_of_lt (by omega)]
  match k, hk with
  | 0, _ | 1, _ | 2, _ => simp [Vec3.component, Vec3.unitZ]

/-- The gyroscopic torque, and nothing for the rotors. -/
theorem entry_bias_torque (hk : 3 + k < r.numVelocities) : (r.bias state).entry (3 + k) =
    ((angularVelocity state).cross
      ((r.worldInertia state).mulVec (angularVelocity state))).component k := by
  rw [bias, Vec.entry_ofFn_of_lt hk, if_neg (by omega), if_pos (by omega), Nat.add_sub_cancel_left]

/-! ### The inputs -/

theorem component_baseForce (hk : k < 3) :
    (r.baseForce v).component k = if r.baseActuated then v.entry k else 0 := by
  rw [baseForce, apply_ite (Vec3.component · k), Vec3.component_ofVec 0 hk, Vec3.component_zero,
    Nat.zero_add]

theorem component_baseTorque (hk : k < 3) :
    (r.baseTorque v).component k = if r.baseActuated then v.entry (3 + k) else 0 := by
  rw [baseTorque, apply_ite (Vec3.component · k), Vec3.component_ofVec 3 hk, Vec3.component_zero]

/-- Each actuator drives one velocity. -/
theorem entry_actuation (i j : ℕ) : r.actuation.entry i j =
    if (i < 6 ∧ j = i ∧ j < r.baseActuators) ∨
      (6 ≤ i ∧ i < r.numVelocities ∧ j = r.baseActuators + (i - 6)) then 1 else 0 := by
  have hnv : r.numVelocities = 6 + r.joints.length := rfl
  have hnu : r.numActuators = r.baseActuators + r.joints.length := rfl
  rw [actuation, Mat.entry_ofFn]
  by_cases hfit : i < r.numVelocities ∧ j < r.numActuators
  · rw [if_pos hfit]
    exact if_congr (by omega) rfl rfl
  · rw [if_neg hfit, if_neg (by omega)]

/-- The base actuators drive the base, if there are any. -/
theorem mulVec_actuation_base (hk : k < 6) : (r.actuation.mulVec v).entry k =
    if r.baseActuated then v.entry k else 0 := by
  have hcols : r.actuation.cols = r.baseActuators + r.joints.length := rfl
  cases hbase : r.baseActuated with
  | false =>
    have hnone : r.baseActuators = 0 := by simp [baseActuators, hbase]
    have hstop : 0 + 0 ≤ r.actuation.cols := Nat.zero_le _
    rw [Mat.entry_mulVec_of_window hstop, range_zero, sum_empty]
    · rfl
    · intro j _
      rw [entry_actuation, if_neg (by omega)]
  | true =>
    have hsix : r.baseActuators = 6 := by simp [baseActuators, hbase]
    have hstop : k + 1 ≤ r.actuation.cols := by omega
    rw [Mat.entry_mulVec_of_window hstop, sum_range_one, entry_actuation, if_pos (by omega),
      one_mul]
    · rfl
    · intro j hj
      rw [entry_actuation, if_neg (by omega)]

/-- The motor of a rotor drives nothing else. -/
theorem mulVec_actuation_joint (hk : k < r.joints.length) :
    (r.actuation.mulVec v).entry (6 + k) = v.entry (r.baseActuators + k) := by
  have hcols : r.actuation.cols = r.baseActuators + r.joints.length := rfl
  have hnv : r.numVelocities = 6 + r.joints.length := rfl
  have hzero (j : ℕ) (hj : ¬ (r.baseActuators + k ≤ j ∧ j < r.baseActuators + k + 1)) :
      r.actuation.entry (6 + k) j = 0 := by
    rw [entry_actuation, if_neg (by omega)]
  rw [Mat.entry_mulVec_of_window (by omega) hzero, sum_range_one, entry_actuation,
    if_pos (by omega), one_mul, Nat.add_zero]

/-! ### The contacts -/

/-- What the contacts add up to for one velocity. -/
theorem contactTorque_tickData (z : Decision) (j : ℕ) :
    (r.tickData state contacts).contactTorque z j = (contacts.zipIdx.map fun e =>
      ((r.pointKinematics state e.1.point.offset).jacobian.getD j 0).dot (z.force e.2)).sum := by
  simp only [TickData.contactTorque, TickData.numbered, tickData, List.zipIdx_map, List.map_map,
    Function.comp_def, Prod.map, Jacobian3.entry_mulVec_transpose]
  rfl

/-- A point follows the base, and turns about its center of mass. -/
theorem getD_jacobian (offset : Vec3 ℝ) (j : ℕ) :
    (r.pointKinematics state offset).jacobian.getD j 0 =
      if j < 3 then Mat3.identity.col j
      else if j < 6 then (-Mat3.skew ((orientation state).rotate offset)).col (j - 3) else 0 := by
  exact Jacobian3.getD_ofBlocks (Nat.le_add_right _ _) _ _ _

/-- The contact forces add up. -/
theorem contactTorque_force (z : Decision) (hk : k < 3) :
    (r.tickData state contacts).contactTorque z k =
      (contacts.zipIdx.map fun e => z.force e.2).sum.component k := by
  rw [contactTorque_tickData, Vec3.component_sum, List.map_map]
  refine congrArg List.sum (List.map_congr_left fun e _ => ?_)
  rw [getD_jacobian, if_pos hk]
  exact Mat3.dot_col_identity _ hk

/-- The torques of the contact forces about the center of mass add up. -/
theorem contactTorque_torque (z : Decision) (hk : k < 3) :
    (r.tickData state contacts).contactTorque z (3 + k) =
      (contacts.zipIdx.map fun e =>
        ((orientation state).rotate e.1.point.offset).cross (z.force e.2)).sum.component k := by
  rw [contactTorque_tickData, Vec3.component_sum, List.map_map]
  refine congrArg List.sum (List.map_congr_left fun e _ => ?_)
  rw [getD_jacobian, if_neg (by omega), if_pos (by omega), Nat.add_sub_cancel_left]
  exact Mat3.dot_col_neg_skew _ _ hk

/-- Contacts do not drive the rotors. -/
theorem contactTorque_joint (z : Decision) (k : ℕ) :
    (r.tickData state contacts).contactTorque z (6 + k) = 0 := by
  rw [contactTorque_tickData]
  refine List.sum_eq_zero (List.forall_mem_map.2 fun e _ => ?_)
  rw [getD_jacobian, if_neg (by omega), if_neg (by omega)]
  simp [Vec3.dot_eq, Vec3.zero_def]

/-! ### The equations of motion -/

section Rows

variable {z : Decision}

/-- A row of the equations of motion of a floating body without loops. -/
def RowHolds (r : FloatingBody ℝ) (state : RobotState ℝ) (contacts : List (ContactPoint ℝ))
    (z : Decision) (j : ℕ) : Prop :=
  ((r.massMatrix state).mulVec z.accelerations).entry j + (r.bias state).entry j =
    (r.actuation.mulVec z.inputs).entry j + (r.tickData state contacts).contactTorque z j

theorem rowHolds_force_iff (hk : k < 3) : r.RowHolds state contacts z k ↔
    (r.mass • (Vec3.ofVec z.accelerations 0 + r.gravity • .unitZ)).component k =
      ((contacts.zipIdx.map fun e => z.force e.2).sum + r.baseForce z.inputs).component k := by
  rw [RowHolds, mulVec_massMatrix_force hk, entry_bias_force hk, mulVec_actuation_base (by omega),
    contactTorque_force z hk, Vec3.component_smul, Vec3.component_add, Vec3.component_smul,
    Vec3.component_ofVec 0 hk, Vec3.component_add, component_baseForce hk, Nat.zero_add, mul_add,
    add_comm (ite _ _ _)]

theorem rowHolds_torque_iff (hk : k < 3) : r.RowHolds state contacts z (3 + k) ↔
    ((r.worldInertia state).mulVec (.ofVec z.accelerations 3)
        + (angularVelocity state).cross
          ((r.worldInertia state).mulVec (angularVelocity state))).component k =
      ((contacts.zipIdx.map fun e =>
        ((orientation state).rotate e.1.point.offset).cross (z.force e.2)).sum
        + r.baseTorque z.inputs).component k := by
  have hlt : 3 + k < r.numVelocities := by rw [numVelocities]; omega
  rw [RowHolds, mulVec_massMatrix_torque hk, entry_bias_torque hlt,
    mulVec_actuation_base (by omega), contactTorque_torque z hk, Vec3.component_add,
    Vec3.component_add, component_baseTorque hk, add_comm (ite _ _ _)]

theorem rowHolds_joint_iff (hk : k < r.joints.length) : r.RowHolds state contacts z (6 + k) ↔
    r.joints[k].inertia * z.accelerations.entry (6 + k) =
      z.inputs.entry (r.baseActuators + k) := by
  have hlt : 3 + (k + 3) < r.numVelocities := by rw [numVelocities]; omega
  have hbias : (r.bias state).entry (6 + k) = 0 := by
    rw [(by omega : 6 + k = 3 + (k + 3)), entry_bias_torque hlt]
    rfl
  rw [RowHolds, mulVec_massMatrix_joint hk, mulVec_actuation_joint hk, contactTorque_joint, hbias,
    add_zero, add_zero]

/-- The rows are Newton's second law, Euler's equation of a rigid body, and one equation for each
rotor. -/
theorem forall_rowHolds_iff : (∀ j < r.numVelocities, r.RowHolds state contacts z j) ↔
    r.mass • (.ofVec z.accelerations 0 + r.gravity • .unitZ) =
        (contacts.zipIdx.map fun e => z.force e.2).sum + r.baseForce z.inputs ∧
      (r.worldInertia state).mulVec (.ofVec z.accelerations 3)
          + (angularVelocity state).cross ((r.worldInertia state).mulVec (angularVelocity state)) =
        (contacts.zipIdx.map fun e =>
          ((orientation state).rotate e.1.point.offset).cross (z.force e.2)).sum
          + r.baseTorque z.inputs ∧
      ∀ k (hk : k < r.joints.length), r.joints[k].inertia * z.accelerations.entry (6 + k) =
        z.inputs.entry (r.baseActuators + k) := by
  have hnv : r.numVelocities = 6 + r.joints.length := rfl
  constructor
  · intro h
    refine ⟨Vec3.ext_component fun k hk => ?_, Vec3.ext_component fun k hk => ?_, fun k hk => ?_⟩
    · exact (rowHolds_force_iff hk).1 (h k (by omega))
    · exact (rowHolds_torque_iff hk).1 (h (3 + k) (by omega))
    · exact (rowHolds_joint_iff hk).1 (h (6 + k) (by omega))
  · rintro ⟨hforce, htorque, hjoint⟩ j hj
    by_cases hj3 : j < 3
    · exact (rowHolds_force_iff hj3).2 (congrArg (Vec3.component · j) hforce)
    · by_cases hj6 : j < 6
      · obtain ⟨k, rfl⟩ := Nat.exists_eq_add_of_le (Nat.le_of_not_lt hj3)
        exact (rowHolds_torque_iff (by omega)).2 (congrArg (Vec3.component · k) htorque)
      · obtain ⟨k, rfl⟩ := Nat.exists_eq_add_of_le (Nat.le_of_not_lt hj6)
        exact (rowHolds_joint_iff (by omega)).2 (hjoint k (by omega))

theorem rowHolds_of_solvesEquations {a : Assembler ℝ} {terms : List (TaskTerm ℝ)} {x : Vec ℝ}
    {p : ConeProgram ℝ} (hloops : r.loops = none)
    (hp : a.build r.model state terms contacts = .ok p) (hx : p.SolvesEquations x) :
    ∀ j < r.numVelocities, r.RowHolds state contacts (p.layout.split x) j := by
  obtain ⟨d, hd, -, -, -, rfl⟩ := Assembler.of_build_eq_ok hp
  obtain ⟨-, hshaped⟩ := TickData.of_gather_eq_ok hd
  obtain rfl := eq_tickData hd
  intro j hj
  have hnone : (r.tickData state contacts).loops = none := hloops
  have hrow := TickData.dynamics_of_solvesEquations hshaped hx j hj
  rwa [TickData.loopTorque, hnone, Option.elim_none, add_zero] at hrow

end Rows

end FloatingBody

namespace PointMass

variable {r : PointMass ℝ} {state : RobotState ℝ} {contacts : List (ContactPoint ℝ)}

/-- Newton's second law for a point mass. -/
theorem force_of_solvesEquations {a : Assembler ℝ} {terms : List (TaskTerm ℝ)} {x : Vec ℝ}
    {p : ConeProgram ℝ} (hp : a.build r.model state terms contacts = .ok p)
    (hx : p.SolvesEquations x) :
    let z := p.layout.split x
    r.mass • (.ofVec z.accelerations 0 + r.gravity • .unitZ) =
      (contacts.zipIdx.map fun e => z.force e.2).sum := by
  intro z
  obtain ⟨d, hd, -, -, -, rfl⟩ := Assembler.of_build_eq_ok hp
  obtain ⟨-, hshaped⟩ := TickData.of_gather_eq_ok hd
  obtain rfl := eq_tickData hd
  refine Vec3.ext_component fun k hk => ?_
  have hrow := TickData.dynamics_of_solvesEquations hshaped hx k hk
  have hbias : (r.tickData state contacts).bias.entry k =
      r.mass * (r.gravity * (Vec3.unitZ : Vec3 ℝ).component k) := by
    match k, hk with
    | 0, _ | 1, _ | 2, _ => simp [tickData, Vec.entry, Vec.ofList, Vec3.component, Vec3.unitZ]
  have hloop : (r.tickData state contacts).loopTorque z k = 0 := rfl
  have hinputs : ((r.tickData state contacts).actuation.mulVec z.inputs).entry k = 0 :=
    Mat.mulVec_zeros _ _
  rw [hbias, hloop, hinputs, contactTorque_force z hk, zero_add, add_zero] at hrow
  rw [Vec3.component_smul, Vec3.component_add, Vec3.component_smul, Vec3.component_ofVec 0 hk,
    Nat.zero_add, mul_add, ← hrow]
  exact congrArg (· + _) (Mat.mulVec_scalarMatrix r.mass hk).symm

end PointMass

/-- Every solution of the equations of a tick obeys the laws of Newton and Euler. On a floating body
without loops, in a state whose quaternion is not zero, the forces change the momentum, their
torques about the center of mass change the spin, with the inertia turned by the orientation, and
every rotor follows its own motor. On a point mass the forces change the momentum. -/
theorem newton_euler {a : Assembler ℝ} {state : RobotState ℝ} {terms : List (TaskTerm ℝ)}
    {contacts : List (ContactPoint ℝ)} {p : ConeProgram ℝ} {x : Vec ℝ} :
    (∀ r : FloatingBody ℝ, r.loops = none → Quaternion.ofVec state.q 3 ≠ ⟨0, 0, 0, 0⟩ →
      a.build r.model state terms contacts = .ok p → p.SolvesEquations x →
      let z := p.layout.split x
      let accel : Vec3 ℝ := .ofVec z.accelerations 0
      let spin : Vec3 ℝ := .ofVec z.accelerations 3
      let ω : Vec3 ℝ := .ofVec state.v 3
      let q := (Quaternion.ofVec state.q 3).normalize
      let R := q.toMat3
      let inertia := R * r.inertia * R.transpose
      (∀ v, .ofParts 0 (R.mulVec v) = q * .ofParts 0 v * q.conj) ∧
      r.mass • (accel + r.gravity • .unitZ) =
        (contacts.zipIdx.map fun e => z.force e.2).sum + r.baseForce z.inputs ∧
      inertia.mulVec spin + ω.cross (inertia.mulVec ω) =
        (contacts.zipIdx.map fun e => (R.mulVec e.1.point.offset).cross (z.force e.2)).sum
          + r.baseTorque z.inputs ∧
      ∀ k (hk : k < r.joints.length), r.joints[k].inertia * z.accelerations.entry (6 + k) =
        z.inputs.entry (r.baseActuators + k)) ∧
    ∀ r : PointMass ℝ, a.build r.model state terms contacts = .ok p → p.SolvesEquations x →
      let z := p.layout.split x
      r.mass • (.ofVec z.accelerations 0 + r.gravity • .unitZ) =
        (contacts.zipIdx.map fun e => z.force e.2).sum := by
  refine ⟨fun r hloops hq hp hx => ?_, fun r hp hx => PointMass.force_of_solvesEquations hp hx⟩
  obtain ⟨hforce, htorque, hjoint⟩ := FloatingBody.forall_rowHolds_iff.1
    (FloatingBody.rowHolds_of_solvesEquations hloops hp hx)
  have hunit := Quaternion.normSq_normalize hq
  simp only [FloatingBody.orientation, Quaternion.rotate_eq_mulVec hunit] at htorque
  exact ⟨Quaternion.ofParts_mulVec_toMat3 _, hforce, htorque, hjoint⟩

/-- A body turned half around its vertical axis that stands on a foot in front of it and drives a
rotor, and a point mass on a foot. -/
theorem newton_euler_turned :
    let r : FloatingBody ℝ := ⟨"base", 1, .identity, 10, true, [⟨"wheel", 3⟩], none, none⟩
    let mass : PointMass ℝ := ⟨"base", 1, 10⟩
    let a : Assembler ℝ := ⟨.standard, []⟩
    let state : RobotState ℝ := ⟨.ofList [0, 0, 0, 0, 0, 0, 2, 0], .zeros 7⟩
    let foot : ContactPoint ℝ := ⟨"foot", ⟨"base", ⟨1, 0, -1⟩⟩, .unitZ, none, some .conic⟩
    (Quaternion.ofVec state.q 3 ≠ ⟨0, 0, 0, 0⟩ ∧
      ∃ p x, a.build r.model state [] [foot] = .ok p ∧ p.SolvesEquations x ∧
        let z := p.layout.split x
        r.mass • (.ofVec z.accelerations 0 + r.gravity • .unitZ) =
          [z.force 0].sum + r.baseForce z.inputs) ∧
    ∃ p x, a.build mass.model ⟨.zeros 3, .zeros 3⟩ [] [foot] = .ok p ∧ p.SolvesEquations x ∧
      let z := p.layout.split x
      mass.mass • (.ofVec z.accelerations 0 + mass.gravity • .unitZ) = [z.force 0].sum := by
  intro r mass a state foot
  have hq : Quaternion.ofVec state.q 3 = ⟨0, 0, 0, 2⟩ := rfl
  have hne : Quaternion.ofVec state.q 3 ≠ ⟨0, 0, 0, 0⟩ := by simp [hq]
  have horient : FloatingBody.orientation state = ⟨0, 0, 0, 1⟩ := by
    have hnorm : (⟨0, 0, 0, 2⟩ : Quaternion ℝ).norm = 2 := by
      rw [Quaternion.norm, Scalar.sqrt_real,
        Real.sqrt_eq_iff_mul_self_eq (Quaternion.normSq_nonneg _) two_pos.le]
      simp [Quaternion.normSq]
    rw [FloatingBody.orientation, hq, Quaternion.normalize, hnorm]
    simp
  have hinertia : r.worldInertia state = .identity := by
    rw [FloatingBody.worldInertia, horient]
    simp [Quaternion.toMat3, r, Mat3.mul_def, Mat3.transpose, Mat3.mulVec, Mat3.identity,
      Mat3.diagonal, Vec3.dot_eq]
  have harm : (FloatingBody.orientation state).rotate foot.point.offset = ⟨-1, 0, -1⟩ := by
    rw [horient]
    norm_num [foot, Quaternion.rotate, Quaternion.vector, Vec3.cross, Vec3.add_def, Vec3.smul_def]
  have hstill : FloatingBody.angularVelocity state = ⟨0, 0, 0⟩ := by
    simp [FloatingBody.angularVelocity, Vec3.ofVec, state]
  let accelerations : Vec ℝ := .ofList [1, 0, 0, 0, 10, 0, 1]
  let arm : PointKinematics ℝ := r.pointKinematics state foot.point.offset
  let z : Decision :=
    { accelerations
      force := fun _ => ⟨0, 0, 10⟩
      loopForces := .zeros 0
      inputs := .ofList [1, 0, 0, 0, 0, 0, 3]
      contactSlack := fun _ => .ofVec (arm.jacobian.toMat.mulVec accelerations) 0
      loopSlack := .zeros 0 }
  have hrows : ∀ j < r.numVelocities, r.RowHolds state [foot] z j := by
    refine FloatingBody.forall_rowHolds_iff.2 ⟨?_, ?_, ?_⟩
    · simp [r, z, accelerations, FloatingBody.baseForce, Vec3.ofVec, Vec.ofList, Vec.entry,
        Vec3.smul_def, Vec3.add_def, Vec3.unitZ, Vec3.zero_def]
    · rw [hinertia, hstill]
      simp [harm, r, z, accelerations, FloatingBody.baseTorque, Vec3.ofVec, Vec.ofList, Vec.entry,
        Vec3.add_def, Vec3.zero_def, Mat3.mulVec, Mat3.identity, Mat3.diagonal, Vec3.dot_eq,
        Vec3.cross]
    · intro k hk
      obtain rfl := Nat.lt_one_iff.1 hk
      simp [r, z, accelerations, Vec.ofList, Vec.entry]
      rfl
  have hnone {τ : Type} {P : τ → Prop} : ∀ t ∈ (none : Option τ), P t := by
    intro t ht
    cases ht
  have hbuild : a.build r.model state [] [foot] = .ok ((r.tickData state [foot]).program a []) :=
    FloatingBody.build_eq_ok ⟨rfl, rfl⟩ (List.forall_mem_singleton.2 rfl) hnone
      (List.forall_mem_nil _) (List.forall_mem_nil _)
  have hframe : foot.frame = ⟨.unitX, .unitY, .unitZ⟩ := ContactFrame.ofNormal_vertical one_pos
  have hvalid : ConeModel.conic.Valid := by
    rintro n ⟨⟩
  have hmeets : (r.tickData state [foot]).Meets a.settings z := by
    refine ⟨fun k hk => ?_, fun e he k hk => ?_, hnone, fun e he => ?_, fun e he => ?_, hnone⟩
    · exact (hrows k hk).trans (add_zero _).symm
    · obtain rfl := List.mem_singleton.1 he
      have hdrift : arm.jdotV = 0 := by
        simp [arm, FloatingBody.pointKinematics, hstill, Vec3.cross, Vec3.zero_def]
      have hslack : (z.contactSlack 0).component k =
          (arm.jacobian.toMat.mulVec accelerations).entry k := by
        rw [Vec3.component_ofVec 0 hk, Nat.zero_add]
      change _ + arm.jdotV.component k = (z.contactSlack 0).component k
      rw [hdrift, Vec3.component_zero, add_zero, hslack]
    · obtain rfl := List.mem_singleton.1 he
      change (0 : ℝ) ≤ foot.frame.normal.dot ⟨0, 0, 10⟩
      simp [hframe, Vec3.unitZ, Vec3.dot_eq]
    · obtain rfl := List.mem_singleton.1 he
      change InExactCone (foot.frame.load _ ⟨0, 0, 10⟩)
      simp [hframe, InExactCone, ContactFrame.load, ContactFrame.components, Vec3.unitX, Vec3.unitY,
        Vec3.unitZ, Vec3.dot_eq]
  have hx : ((r.tickData state [foot]).program a []).SolvesEquations _ :=
    hmeets.solvesEquations_join (FloatingBody.shaped_tickData hnone) ⟨rfl, rfl, rfl⟩ []
  have hmassBuild : a.build mass.model ⟨.zeros 3, .zeros 3⟩ [] [foot] =
      .ok ((mass.tickData ⟨.zeros 3, .zeros 3⟩ [foot]).program a []) :=
    PointMass.build_eq_ok ⟨rfl, rfl⟩ (List.forall_mem_singleton.2 rfl) (List.forall_mem_nil _)
      (List.forall_mem_nil _)
  have hstand : (mass.tickData ⟨.zeros 3, .zeros 3⟩ [foot]).Meets a.settings
      (PointMass.stand fun _ => 10) :=
    PointMass.meets_stand (List.forall_mem_singleton.2 rfl) (List.forall_mem_singleton.2 hvalid)
      le_rfl (fun _ _ => (by norm_num : (0 : ℝ) ≤ 10)) (by norm_num [mass])
  have hxMass : ((mass.tickData ⟨.zeros 3, .zeros 3⟩ [foot]).program a []).SolvesEquations _ :=
    hstand.solvesEquations_join PointMass.shaped_tickData PointMass.sized_stand []
  obtain ⟨-, hforce, -⟩ := newton_euler.1 r rfl hne hbuild hx
  exact ⟨⟨hne, _, _, hbuild, hx, hforce⟩, _, _, hmassBuild, hxMass,
    newton_euler.2 mass hmassBuild hxMass⟩

end WholeBody
