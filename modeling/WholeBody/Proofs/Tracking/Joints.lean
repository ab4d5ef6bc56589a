import Mathlib
import WholeBody.Proofs.Program.Cost
import WholeBody.Proofs.Tracking.FeedbackLaw

/-!
# Objectives for joints

An active objective for a joint asks for one acceleration with one weight, and its share of the cost
is a parabola in that acceleration.

## Main statements

* `TrackingObjective.of_evaluate_joint_eq_ok` — the term of an objective for a joint.
* `TaskTerm.Single.share` — its share of the cost.
-/

namespace WholeBody

/-- A term about the velocity with index `j` alone: it asks for the acceleration `c` with the
weight `w`. -/
structure TaskTerm.Single (t : TaskTerm ℝ) (nv j : ℕ) (w c : ℝ) : Prop where
  jacobian : t.jacobian = .ofFn 1 nv fun _ i => if i = j then 1 else 0
  size_drift : t.drift.size = 1
  drift : t.drift.entry 0 = -c
  size_weight : t.weight.IsSize 1
  weight : t.weight.entry 0 0 = w

theorem Mat.IsSize.isSymmetric {m : Mat ℝ} (h : m.IsSize 1) : m.IsSymmetric := by
  intro i j
  obtain ⟨hrows, hcols⟩ := h
  rcases Nat.eq_zero_or_pos i with rfl | hi
  · rcases Nat.eq_zero_or_pos j with rfl | hj
    · rfl
    · rw [entry_of_cols_le (by omega), entry_of_rows_le (by omega)]
  · rw [entry_of_rows_le (by omega), entry_of_cols_le (by omega)]

theorem Mat.IsSize.form_eq {m : Mat ℝ} (h : m.IsSize 1) {v : Vec ℝ} (hv : v.size = 1) :
    m.form v = m.entry 0 0 * v.entry 0 ^ 2 := by
  rw [form_eq_sum ⟨h.1.trans hv.symm, h.2.trans hv.symm⟩, hv, Finset.sum_range_one,
    Finset.sum_range_one]
  ring

/-- A row with a single one. -/
theorem Mat.entry_mulVec_unitRow {nv j : ℕ} (hj : j < nv) (v : Vec ℝ) :
    ((ofFn 1 nv fun _ i => if i = j then 1 else 0).mulVec v).entry 0 = v.entry j := by
  have hzero (i : ℕ) (hi : ¬ (j ≤ i ∧ i < j + 1)) :
      (ofFn 1 nv fun _ i => if i = j then (1 : ℝ) else 0).entry 0 i = 0 := by
    rw [entry_ofFn, if_neg (by omega : ¬ i = j), ite_self]
  rw [entry_mulVec_of_window (by rwa [cols_ofFn]) hzero, Finset.sum_range_one, Nat.add_zero,
    entry_ofFn_of_lt Nat.one_pos hj, if_pos rfl, one_mul]

namespace TaskTerm.Single

variable {t : TaskTerm ℝ} {nv j : ℕ} {w c : ℝ} {v : Vec ℝ}

/-- The share of the cost, less what it is at rest. -/
theorem share (h : t.Single nv j w c) (hj : j < nv) :
    t.weight.form (t.accelError v) - t.weight.form t.drift =
      w * v.entry j ^ 2 - 2 * (w * c) * v.entry j := by
  have hsize : (t.accelError v).size = 1 := by
    rw [accelError, h.jacobian, Vec.size_add, Mat.size_mulVec, Mat.rows_ofFn]
  have hmotion : (t.jacobian.mulVec v).entry 0 = v.entry j := by
    rw [h.jacobian, Mat.entry_mulVec_unitRow hj]
  have herror : (t.accelError v).entry 0 = v.entry j - c := by
    rw [accelError, Vec.entry_add, hmotion, h.drift, sub_eq_add_neg]
    rw [h.size_drift, h.jacobian, Mat.size_mulVec, Mat.rows_ofFn]
  rw [h.size_weight.form_eq hsize, h.size_weight.form_eq h.size_drift, herror, h.drift, h.weight]
  ring

end TaskTerm.Single

namespace TrackingObjective

/-- The acceleration that an objective commands to a joint. -/
noncomputable def jointCommand (o : TrackingObjective ℝ) (state : RobotState ℝ)
    (s : TrajectorySample ℝ) (index : JointIndex) : ℝ :=
  s.ddot.entry 0 + o.gains.kd.entry 0 0 * (s.dot.entry 0 - state.v.entry index.velocity)
    + o.gains.kp.entry 0 0 * (s.value.entry 0 - state.q.entry index.position)

variable {o : TrackingObjective ℝ} {state : RobotState ℝ} {s : TrajectorySample ℝ}

/-- The command of the motion of a joint. -/
theorem command_jointMotion (state : RobotState ℝ) {nv : ℕ} {index : JointIndex}
    (hindex : index.velocity < nv)
    (hkp : o.gains.kp.IsSize 1) (hkd : o.gains.kd.IsSize 1) (hdot : s.dot.size = 1)
    (hddot : s.ddot.size = 1) :
    let m := jointMotion nv s state index
    let ddy := o.command s (m.jacobian.mulVec state.v) m.error
    ddy.size = 1 ∧ ddy.entry 0 = o.jointCommand state s index := by
  intro m ddy
  have hvelocity : (m.jacobian.mulVec state.v).entry 0 = state.v.entry index.velocity :=
    Mat.entry_mulVec_unitRow hindex state.v
  refine ⟨(o.size_command s _ _).trans hddot, ?_⟩
  rw [entry_command hkp hkd hdot hddot (Mat.size_mulVec _ _), Finset.sum_range_one,
    Finset.sum_range_one, hvelocity]
  rfl

/-- The term of an active objective for a joint. -/
theorem of_evaluate_joint_eq_ok (ho : o.WellShaped) {model : RobotModel ℝ} {phase : PhaseId}
    {timeInPhase : ℝ} {sample : Option (TrajectorySample ℝ)} {name : String}
    {result : Option (TaskTerm ℝ)} (htarget : o.activeTarget phase timeInPhase = some (.joint name))
    (h : o.evaluate model state phase timeInPhase sample = .ok result) :
    ∃ s index t, o.desired sample = .ok s ∧ model.jointIndex name = some index ∧
      index.velocity < model.numVelocities ∧ result = some t ∧
      t.Single model.numVelocities index.velocity ((o.effectiveWeight phase).entry 0 0)
        (o.jointCommand state s index) := by
  have hdim : o.dim = 1 := (dim_of_activeTarget htarget).1
  rw [evaluate, htarget] at h
  obtain ⟨s, hs, h⟩ := Except.of_bind_eq_ok h
  obtain ⟨_, hcheck, h⟩ := Except.of_bind_eq_ok h
  obtain ⟨m, hm, h⟩ := Except.of_bind_eq_ok h
  obtain ⟨_, -, h⟩ := Except.of_bind_eq_ok h
  cases h
  obtain ⟨-, hdot, hddot⟩ := TrajectorySample.of_check_eq_ok (Attempt.of_ofExcept_eq_ok hcheck)
  rw [motion] at hm
  cases hindex : model.jointIndex name with
  | none =>
    rw [hindex] at hm
    cases hm
  | some index =>
    rw [hindex] at hm
    obtain ⟨_, hindices, hm⟩ := Except.of_bind_eq_ok hm
    cases hm
    obtain ⟨hvelocity, -⟩ := Attempt.of_conforming_eq_ok hindices
    obtain ⟨hsize, hcommand⟩ := command_jointMotion state hvelocity (hdim ▸ ho.kp)
      (hdim ▸ ho.kd) (hdot.trans hdim) (hddot.trans hdim)
    refine ⟨s, index, _, Attempt.of_ofExcept_eq_ok hs, rfl, hvelocity, rfl, rfl, Vec.size_sub _ _,
      ?_, hdim ▸ ho.isSize_effectiveWeight phase, rfl⟩
    rw [TaskTerm.drift, Vec.entry_sub hsize.le]
    exact (congrArg _ hcommand).trans (zero_sub _)

end TrackingObjective

end WholeBody
