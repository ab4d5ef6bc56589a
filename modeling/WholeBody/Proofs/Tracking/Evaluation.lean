import Mathlib
import WholeBody.Proofs.Attempt
import WholeBody.Tracking.Objective

/-!
# Evaluating objectives

An objective that was made through its checks meets no sizes that do not fit together, whatever a
robot answers: either something is reported, or its term fits the velocities of the robot.

## Main statements

* `TrackingObjective.Made.wellShaped` — gains and weight have the dimension of the task.
* `TrackingObjective.WellShaped.conforms_evaluate` — evaluation reports or succeeds.
* `TrackingObjective.WellShaped.fits_of_evaluate_eq_ok` — the sizes of the term.
-/

namespace WholeBody

variable {α : Type} [Scalar α]

/-- A robot with fixed dimensions whose joints are within them. It may answer anything else. -/
structure RobotModel.Regular (m : RobotModel α) (nq nv nu : Nat) : Prop where
  numPositions : m.numPositions = nq
  numVelocities : m.numVelocities = nv
  numActuators : m.numActuators = nu
  checkState : m.checkState = checkDimensions nq nv
  jointIndex : ∀ name index, m.jointIndex name = some index →
    index.position < nq ∧ index.velocity < nv

omit [Scalar α] in
theorem of_checkDimensions_eq_ok {nq nv : Nat} {state : RobotState α} {u : Unit}
    (h : checkDimensions nq nv state = .ok u) : state.q.size = nq ∧ state.v.size = nv := by
  rw [checkDimensions] at h
  split at h
  · assumption
  · cases h

/-- A square matrix with `n` rows. -/
def Mat.IsSize (m : Mat α) (n : Nat) : Prop := m.rows = n ∧ m.cols = n

/-- All that is checked of a matrix. -/
theorem FeedbackGains.validateMatrix_eq_ok_iff [Spectrum α] {name : String}
    {role : MatrixRole} {m : Mat α} {n : Nat} : validateMatrix name role m n = .ok () ↔
      m.IsSize n ∧ m.allFinite = true ∧ ¬ tolerance * magnitude m < m.asymmetry ∧ 0 < n ∧
        ¬ Spectrum.leastEigenvalue m < -tolerance * magnitude m := by
  have hsize : m.IsSize n ↔ ¬ (m.rows ≠ n ∨ m.cols ≠ n) := by
    rw [not_or, not_ne_iff, not_ne_iff]
    rfl
  have hfits : Attempt.conforming (0 < n) = (.ok () : Attempt (ConfigError α) Unit) ↔ 0 < n :=
    ⟨Attempt.of_conforming_eq_ok, Attempt.conforming_eq_ok⟩
  rw [hsize, ← Bool.not_eq_false, ← hfits, validateMatrix]
  refine Except.guard_bind_eq_ok_iff.trans (and_congr_right' ?_)
  refine Except.guard_bind_eq_ok_iff.trans (and_congr_right' ?_)
  refine Except.guard_bind_eq_ok_iff.trans (and_congr_right' ?_)
  refine Except.seq_eq_ok_iff.trans (and_congr_right' ?_)
  exact Except.guard_eq_ok_iff

theorem FeedbackGains.conforms_validateMatrix [Spectrum α] {name : String} {role : MatrixRole}
    {m : Mat α} {n : Nat} (hn : 0 < n) : (validateMatrix name role m n).Conforms := by
  rw [validateMatrix]
  refine Attempt.conforms_guard (Attempt.conforms_guard (Attempt.conforms_guard ?_))
  refine (Attempt.conforms_conforming hn).bind fun _ _ => ?_
  dsimp only
  split
  · exact Attempt.conforms_fail _
  · exact Attempt.conforms_ok ()

namespace TrackingObjective

/-- Objectives that were made through the checks. -/
inductive Made [Spectrum α] : TrackingObjective α → Prop
  | create {name kind gains weight o} (h : create name kind gains weight = .ok o) : Made o
  | constantTarget {o s o'} (ho : Made o) (h : o.withConstantTarget s = .ok o') : Made o'
  | window {o start stop o'} (ho : Made o) (h : o.withWindow start stop = .ok o') : Made o'
  | phaseScale {o phase scale o'} (ho : Made o) (h : o.withPhaseScale phase scale = .ok o') :
    Made o'

/-- Gains and weight have the dimension of the task. -/
structure WellShaped (o : TrackingObjective α) : Prop where
  kp : o.gains.kp.IsSize o.dim
  kd : o.gains.kd.IsSize o.dim
  weight : o.weight.IsSize o.dim

/-- The objectives that pass the checks, as they are made. -/
theorem create_eq_ok_iff [Spectrum α] {name : String} {kind : ObjectiveKind α}
    {gains : FeedbackGains α} {weight : Mat α} {o : TrackingObjective α} :
    create name kind gains weight = .ok o ↔
      (FeedbackGains.validateMatrix name .kp gains.kp kind.dim = .ok () ∧
        FeedbackGains.validateMatrix name .kd gains.kd kind.dim = .ok () ∧
        FeedbackGains.validateMatrix name .weight weight kind.dim = .ok ()) ∧
      o = ⟨name, kind, gains, weight, .empty, none, .trajectory⟩ := by
  have hgains : gains.validate name kind.dim = .ok () ↔
      FeedbackGains.validateMatrix name .kp gains.kp kind.dim = .ok () ∧
        FeedbackGains.validateMatrix name .kd gains.kd kind.dim = .ok () :=
    Except.seq_eq_ok_iff
  refine Except.seq_eq_ok_iff.trans ?_
  rw [hgains, ← and_assoc, and_assoc (c := o = _)]
  refine and_congr_right' (Except.seq_eq_ok_iff.trans (and_congr_right' ?_))
  exact ⟨fun h => (Except.ok.inj h).symm, fun h => congrArg _ h.symm⟩

theorem conforms_create [Spectrum α] {name : String} {kind : ObjectiveKind α}
    {gains : FeedbackGains α} {weight : Mat α} : (create name kind gains weight).Conforms := by
  have hdim : 0 < kind.dim := by cases kind <;> exact Nat.succ_pos _
  refine Attempt.Conforms.bind ?_ fun _ _ => ?_
  · exact (FeedbackGains.conforms_validateMatrix hdim).bind fun _ _ =>
      FeedbackGains.conforms_validateMatrix hdim
  · exact (FeedbackGains.conforms_validateMatrix hdim).bind fun _ _ => Attempt.conforms_ok _

theorem eq_of_create_eq_ok [Spectrum α] {name : String} {kind : ObjectiveKind α}
    {gains : FeedbackGains α} {weight : Mat α} {o : TrackingObjective α}
    (h : create name kind gains weight = .ok o) :
    o = ⟨name, kind, gains, weight, .empty, none, .trajectory⟩ :=
  (create_eq_ok_iff.1 h).2

theorem withConstantTarget_eq_ok_iff {o o' : TrackingObjective α} {s : TrajectorySample α} :
    o.withConstantTarget s = .ok o' ↔
      o.checkSample s = .ok () ∧ o' = { o with source := .constant s } := by
  rw [withConstantTarget]
  cases o.checkSample s with
  | ok u => simp [eq_comm]
  | error e => simp

theorem withWindow_eq_ok_iff {o o' : TrackingObjective α} {start stop : α} :
    o.withWindow start stop = .ok o' ↔
      (Scalar.isFinite start = true ∧ Scalar.isFinite stop = true ∧ ¬ stop < start) ∧
        o' = { o with window := some ⟨start, stop⟩ } := by
  rw [withWindow, Except.ite_error_eq_ok_iff, not_or, not_or, Bool.not_eq_false, Bool.not_eq_false]

theorem withPhaseScale_eq_ok_iff {o o' : TrackingObjective α} {phase : PhaseId} {scale : α} :
    o.withPhaseScale phase scale = .ok o' ↔
      (Scalar.isFinite scale = true ∧ ¬ scale < 0) ∧
        o' = { o with phaseScales := o.phaseScales.insert phase scale } := by
  rw [withPhaseScale, Except.ite_error_eq_ok_iff, not_or, Bool.not_eq_false]

theorem Made.wellShaped [Spectrum α] {o : TrackingObjective α} (h : o.Made) : o.WellShaped := by
  induction h with
  | create h =>
    obtain ⟨⟨hkp, hkd, hweight⟩, rfl⟩ := create_eq_ok_iff.1 h
    exact ⟨(FeedbackGains.validateMatrix_eq_ok_iff.1 hkp).1,
      (FeedbackGains.validateMatrix_eq_ok_iff.1 hkd).1,
      (FeedbackGains.validateMatrix_eq_ok_iff.1 hweight).1⟩
  | constantTarget _ h ih =>
    obtain ⟨-, rfl⟩ := withConstantTarget_eq_ok_iff.1 h
    exact ⟨ih.kp, ih.kd, ih.weight⟩
  | window _ h ih =>
    obtain ⟨-, rfl⟩ := withWindow_eq_ok_iff.1 h
    exact ⟨ih.kp, ih.kd, ih.weight⟩
  | phaseScale _ h ih =>
    obtain ⟨-, rfl⟩ := withPhaseScale_eq_ok_iff.1 h
    exact ⟨ih.kp, ih.kd, ih.weight⟩

end TrackingObjective

/-! ### Targets and samples -/

namespace Target

/-- Dimension of the motion of a target. -/
def dim : Target α → Nat
  | joint _ => 1
  | _ => 3

/-- Length of the desired value of a target. -/
def valueDim : Target α → Nat
  | frame _ => 4
  | joint _ => 1
  | _ => 3

end Target

omit [Scalar α] in
/-- A kind is bound to targets of its own dimensions only. -/
theorem ObjectiveKind.dim_of_resolve {kind : ObjectiveKind α} {phase : PhaseId} {t : Target α}
    (h : kind.resolve phase = some t) : kind.dim = t.dim ∧ kind.valueDim = t.valueDim := by
  cases kind with
  | centerOfMass b =>
    obtain ⟨_, -, rfl⟩ := Option.map_eq_some_iff.1 h
    exact ⟨rfl, rfl⟩
  | translationalPoint b =>
    obtain ⟨_, -, rfl⟩ := Option.map_eq_some_iff.1 h
    exact ⟨rfl, rfl⟩
  | rotationalFrame b =>
    obtain ⟨_, -, rfl⟩ := Option.map_eq_some_iff.1 h
    exact ⟨rfl, rfl⟩
  | jointSpace b =>
    obtain ⟨_, -, rfl⟩ := Option.map_eq_some_iff.1 h
    exact ⟨rfl, rfl⟩

theorem SortedMap.mem_values_of_get? {κ β : Type} [KeyOrder κ] {m : SortedMap κ β} {k : κ} {b : β}
    (h : m.get? k = some b) : b ∈ m.values := by
  obtain ⟨e, he, rfl⟩ := Option.map_eq_some_iff.1 h
  exact List.mem_map_of_mem (List.mem_of_find?_eq_some he)

theorem PhaseBinding.mem_targets_of_resolve {τ : Type} {b : PhaseBinding τ} {phase : PhaseId}
    {t : τ} (h : b.resolve phase = some t) : t ∈ b.targets := by
  cases b with
  | always t' =>
    cases h
    exact List.mem_singleton_self _
  | perPhase m => exact SortedMap.mem_values_of_get? h

omit [Scalar α] in
/-- Whatever a kind is bound to in some phase is among its targets. -/
theorem ObjectiveKind.mem_targets_of_resolve {kind : ObjectiveKind α} {phase : PhaseId}
    {t : Target α} (h : kind.resolve phase = some t) : t ∈ kind.targets := by
  cases kind with
  | centerOfMass b | translationalPoint b | rotationalFrame b | jointSpace b =>
    obtain ⟨t', ht', rfl⟩ := Option.map_eq_some_iff.1 h
    exact List.mem_map_of_mem (PhaseBinding.mem_targets_of_resolve ht')

/-- A robot has the body or the joint of a target. -/
def Target.Known (m : RobotModel α) : Target α → Prop
  | centerOfMass => True
  | point p => m.hasBody p.body = true
  | frame body => m.hasBody body = true
  | joint name => ∃ index, m.jointIndex name = some index

omit [Scalar α] in
theorem Target.known_of_validate_eq_ok {m : RobotModel α} {t : Target α}
    (h : t.validate m = .ok ()) : t.Known m := by
  cases t with
  | centerOfMass => trivial
  | point p =>
    by_cases hbody : m.hasBody p.body = true
    · exact hbody
    · simp [validate, hbody] at h
  | frame body =>
    by_cases hbody : m.hasBody body = true
    · exact hbody
    · simp [validate, hbody] at h
  | joint name =>
    rw [validate] at h
    cases hindex : m.jointIndex name with
    | none => simp [hindex] at h
    | some index => exact ⟨index, hindex⟩

theorem TrajectorySample.of_check_eq_ok {s : TrajectorySample α} {objective : String}
    {valueDim dim : Nat} {isOrientation : Bool} {u : Unit}
    (h : s.check objective valueDim dim isOrientation = .ok u) :
    s.value.size = valueDim ∧ s.dot.size = dim ∧ s.ddot.size = dim := by
  rw [check] at h
  by_cases hvalue : s.value.size ≠ valueDim
  · rw [if_pos hvalue] at h
    cases h
  · rw [if_neg hvalue] at h
    by_cases hdot : s.dot.size ≠ dim
    · rw [if_pos hdot] at h
      cases h
    · rw [if_neg hdot] at h
      by_cases hddot : s.ddot.size ≠ dim
      · rw [if_pos hddot] at h
        cases h
      · exact ⟨of_not_not hvalue, of_not_not hdot, of_not_not hddot⟩

namespace TrackingObjective

/-! ### Motions -/

/-- The sizes of a motion of dimension `dim` for `nv` velocities. -/
structure TaskMotion.Shaped (m : TaskMotion α) (dim nv : Nat) : Prop where
  jacobian : m.jacobian.rows = dim ∧ m.jacobian.cols = nv
  jdotV : m.jdotV.size = dim
  error : m.error.size = dim

variable {o : TrackingObjective α} {model : RobotModel α} {state : RobotState α}
  {s : TrajectorySample α} {nq nv nu : Nat}

theorem taskJacobian_eq_ok_iff {jacobian : Jacobian3 α} {J : Mat α} :
    o.taskJacobian jacobian nv = .ok J ↔ jacobian.length = nv ∧ J = jacobian.toMat := by
  rw [taskJacobian]
  split <;> simp_all [eq_comm]

theorem of_taskJacobian_eq_ok {jacobian : Jacobian3 α} {J : Mat α}
    (h : o.taskJacobian jacobian nv = .ok J) : J.rows = 3 ∧ J.cols = nv := by
  obtain ⟨hlength, rfl⟩ := taskJacobian_eq_ok_iff.1 h
  exact ⟨rfl, hlength⟩

theorem conforms_pointMotion {kin : PointKinematics α} (hvalue : s.value.size = 3) :
    Attempt.Conforms (o.pointMotion nv s kin) := by
  refine .bind (Attempt.conforms_conforming hvalue.ge) fun _ _ => ?_
  exact .bind (Attempt.conforms_ofExcept _ _) fun _ _ => Attempt.conforms_ok _

theorem shaped_of_pointMotion {kin : PointKinematics α} {m : TaskMotion α}
    (h : o.pointMotion nv s kin = .ok m) : m.Shaped 3 nv := by
  obtain ⟨_, -, h⟩ := Except.of_bind_eq_ok h
  obtain ⟨J, hJ, h⟩ := Except.of_bind_eq_ok h
  cases h
  exact ⟨of_taskJacobian_eq_ok (Attempt.of_ofExcept_eq_ok hJ), rfl, rfl⟩

theorem shaped_of_frameMotion {desired : Quaternion α} {kin : FrameKinematics α}
    {m : TaskMotion α} (h : o.frameMotion nv desired kin = .ok m) : m.Shaped 3 nv := by
  obtain ⟨J, hJ, h⟩ := Except.of_bind_eq_ok h
  cases h
  exact ⟨of_taskJacobian_eq_ok hJ, rfl, rfl⟩

/-- The motion of a target never meets sizes that do not fit together. -/
theorem conforms_motion (hmodel : model.Regular nq nv nu) (hq : state.q.size = nq) {t : Target α}
    (hvalue : s.value.size = t.valueDim) : Attempt.Conforms (o.motion model state s t) := by
  cases t with
  | centerOfMass =>
    exact .bind (Attempt.conforms_ofExcept _ _) fun _ _ => conforms_pointMotion hvalue
  | point p => exact .bind (Attempt.conforms_ofExcept _ _) fun _ _ => conforms_pointMotion hvalue
  | frame body =>
    refine .bind (Attempt.conforms_ofExcept _ _) fun kin _ => ?_
    cases Quaternion.ofSample? s.value with
    | none => exact Attempt.conforms_fail _
    | some q => exact Attempt.conforms_ofExcept _ _
  | joint name =>
    rw [motion]
    cases hindex : model.jointIndex name with
    | none => exact Attempt.conforms_fail _
    | some index =>
      obtain ⟨hposition, hvelocity⟩ := hmodel.jointIndex name index hindex
      have hsize : 0 < s.value.size := by
        rw [hvalue]
        exact Nat.one_pos
      refine .bind (Attempt.conforms_conforming ⟨?_, hsize, ?_⟩) fun _ _ => Attempt.conforms_ok _
      · rwa [hmodel.numVelocities]
      · rwa [hq]

/-- The sizes of the motion of a target. -/
theorem shaped_of_motion (hmodel : model.Regular nq nv nu) {t : Target α} {m : TaskMotion α}
    (h : o.motion model state s t = .ok m) : m.Shaped t.dim nv := by
  rw [← hmodel.numVelocities]
  cases t with
  | centerOfMass =>
    obtain ⟨kin, -, h⟩ := Except.of_bind_eq_ok h
    exact shaped_of_pointMotion h
  | point p =>
    obtain ⟨kin, -, h⟩ := Except.of_bind_eq_ok h
    exact shaped_of_pointMotion h
  | frame body =>
    obtain ⟨kin, -, h⟩ := Except.of_bind_eq_ok h
    cases hq : Quaternion.ofSample? s.value with
    | none =>
      rw [hq] at h
      cases h
    | some q =>
      rw [hq] at h
      exact shaped_of_frameMotion (Attempt.of_ofExcept_eq_ok h)
  | joint name =>
    rw [motion] at h
    cases hindex : model.jointIndex name with
    | none =>
      rw [hindex] at h
      cases h
    | some index =>
      rw [hindex] at h
      obtain ⟨_, -, h⟩ := Except.of_bind_eq_ok h
      cases h
      exact ⟨⟨rfl, rfl⟩, Vec.size_zeros _, rfl⟩

/-! ### Terms -/

omit [Scalar α] in
/-- The state, the sample and the motion of an active target fit together and fit the gains. -/
theorem WellShaped.commandFits (ho : o.WellShaped) (hv : state.v.size = nv) {m : TaskMotion α}
    (hm : m.Shaped o.dim nv) (hdot : s.dot.size = o.dim) (hddot : s.ddot.size = o.dim) :
    o.CommandFits state s m := by
  obtain ⟨hrows, hcols⟩ := hm.jacobian
  exact ⟨hcols.trans hv.symm, hdot.trans hrows.symm, ho.kd.2.trans hdot.symm,
    ho.kd.1.trans hddot.symm, ho.kp.2.trans hm.error.symm, ho.kp.1.trans hddot.symm⟩

theorem WellShaped.isSize_effectiveWeight (ho : o.WellShaped) (phase : PhaseId) :
    (o.effectiveWeight phase).IsSize o.dim := by
  rw [effectiveWeight]
  cases o.phaseScales.get? phase with
  | none => exact ho.weight
  | some scale => exact ⟨ho.weight.1, ho.weight.2⟩

theorem WellShaped.fits_term (ho : o.WellShaped) {m : TaskMotion α} (hm : m.Shaped o.dim nv)
    (hddot : s.ddot.size = o.dim) (phase : PhaseId) : (o.term phase state s m).Fits nv := by
  obtain ⟨hrows, hcols⟩ := hm.jacobian
  obtain ⟨hwrows, hwcols⟩ := ho.isSize_effectiveWeight phase
  have hcommand : (o.term phase state s m).ddyCmd.size = o.dim := by
    simp only [term, command, Vec.size_add]
    exact hddot
  exact ⟨hwrows.trans hrows.symm, hwcols.trans hrows.symm, hm.jdotV.trans hrows.symm,
    hcommand.trans hrows.symm, hcols.le⟩

variable {phase : PhaseId} {timeInPhase : α} {sample : Option (TrajectorySample α)}

theorem dim_of_activeTarget {t : Target α} (h : o.activeTarget phase timeInPhase = some t) :
    o.dim = t.dim ∧ o.kind.valueDim = t.valueDim := by
  rw [activeTarget] at h
  split at h
  · exact ObjectiveKind.dim_of_resolve h
  · cases h

/-- Evaluation never meets sizes that do not fit together. -/
theorem WellShaped.conforms_evaluate (ho : o.WellShaped) (hmodel : model.Regular nq nv nu)
    (hq : state.q.size = nq) (hv : state.v.size = nv) :
    Attempt.Conforms (o.evaluate model state phase timeInPhase sample) := by
  rw [evaluate]
  cases htarget : o.activeTarget phase timeInPhase with
  | none => exact Attempt.conforms_ok _
  | some t =>
    obtain ⟨hdim, hvalueDim⟩ := dim_of_activeTarget htarget
    refine .bind (Attempt.conforms_ofExcept _ _) fun s _ => ?_
    refine .bind (Attempt.conforms_ofExcept _ _) fun _ hcheck => ?_
    obtain ⟨hvalue, hdot, hddot⟩ :=
      TrajectorySample.of_check_eq_ok (Attempt.of_ofExcept_eq_ok hcheck)
    refine .bind (conforms_motion hmodel hq (hvalue.trans hvalueDim)) fun m hm => ?_
    have hshaped : m.Shaped o.dim nv := hdim ▸ shaped_of_motion hmodel hm
    refine .bind (Attempt.conforms_conforming ?_) fun _ _ => Attempt.conforms_ok _
    exact ho.commandFits hv hshaped hdot hddot

/-- An objective that is not active has no term, and one that is has that of a motion. -/
theorem of_evaluate_eq_ok {term : Option (TaskTerm α)}
    (h : o.evaluate model state phase timeInPhase sample = .ok term) :
    o.activeTarget phase timeInPhase = none ∧ term = none ∨
      ∃ t s m, o.activeTarget phase timeInPhase = some t ∧
        term = some (o.term phase state s m) := by
  rw [evaluate] at h
  cases htarget : o.activeTarget phase timeInPhase with
  | none =>
    rw [htarget] at h
    cases h
    exact .inl ⟨rfl, rfl⟩
  | some t =>
    rw [htarget] at h
    obtain ⟨s, -, h⟩ := Except.of_bind_eq_ok h
    obtain ⟨_, -, h⟩ := Except.of_bind_eq_ok h
    obtain ⟨m, -, h⟩ := Except.of_bind_eq_ok h
    obtain ⟨_, -, h⟩ := Except.of_bind_eq_ok h
    cases h
    exact .inr ⟨t, s, m, rfl, rfl⟩

/-- The term of an evaluation fits the velocities of the robot. -/
theorem WellShaped.fits_of_evaluate_eq_ok (ho : o.WellShaped) (hmodel : model.Regular nq nv nu)
    {term : Option (TaskTerm α)}
    (h : o.evaluate model state phase timeInPhase sample = .ok term) :
    ∀ t ∈ term, t.Fits nv := by
  rw [evaluate] at h
  cases htarget : o.activeTarget phase timeInPhase with
  | none =>
    rw [htarget] at h
    cases h
    exact nofun
  | some t =>
    rw [htarget] at h
    obtain ⟨hdim, -⟩ := dim_of_activeTarget htarget
    obtain ⟨s, -, h⟩ := Except.of_bind_eq_ok h
    obtain ⟨_, hcheck, h⟩ := Except.of_bind_eq_ok h
    obtain ⟨m, hm, h⟩ := Except.of_bind_eq_ok h
    obtain ⟨_, -, h⟩ := Except.of_bind_eq_ok h
    cases h
    obtain ⟨-, -, hddot⟩ := TrajectorySample.of_check_eq_ok (Attempt.of_ofExcept_eq_ok hcheck)
    have hshaped : m.Shaped o.dim nv := hdim ▸ shaped_of_motion hmodel hm
    rintro _ ⟨⟩
    exact ho.fits_term hshaped hddot phase

end TrackingObjective

end WholeBody
