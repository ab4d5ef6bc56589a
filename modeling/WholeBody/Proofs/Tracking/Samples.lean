import Mathlib
import WholeBody.Proofs.Robot.Serving

/-!
# Samples of objectives

An objective asks for its sample when it follows a trajectory and is active. If it asks and there is
no sample that it accepts, it blames the inputs. Otherwise it has its term, as long as the robot
answers; and a sample that is not asked for makes no difference.

## Main statements

* `TrackingObjective.checkSample_eq_ok_iff` — the samples that an objective accepts.
* `TrackingObjective.evaluate_congr` — the samples that are not looked at.
* `TrackingObjective.Lacks.exists_evaluate_eq_input`, `TrackingObjective.exists_evaluate_eq_ok` —
  objectives with and without the sample they ask for.
-/

namespace WholeBody

variable {α : Type} [Scalar α]

/-! ### Acceptance -/

/-- A vector of the right length has a direction when its norm is finite and not too small. -/
theorem Quaternion.isNone_ofSample?_iff {v : Vec α} (h : v.size = 4) :
    (ofSample? v).isNone = true ↔ ¬ (Scalar.isFinite (ofVec v 0).norm = true ∧
      ¬ (ofVec v 0).norm < Scalar.ofDecimal 1 9) := by
  rw [ofSample?, if_pos h]
  dsimp only
  split <;> simp_all

omit [Scalar α] in
theorem ObjectiveKind.isOrientation_of_resolve {kind : ObjectiveKind α} {phase : PhaseId}
    {body : String} (h : kind.resolve phase = some (.frame body)) : kind.isOrientation = true := by
  cases kind with
  | rotationalFrame b => rfl
  | centerOfMass b | translationalPoint b | jointSpace b => simp [resolve] at h

omit [Scalar α] in
theorem ObjectiveKind.valueDim_of_isOrientation {kind : ObjectiveKind α}
    (h : kind.isOrientation = true) : kind.valueDim = 4 := by
  rw [valueDim, if_pos h]

namespace TrackingObjective

variable {o : TrackingObjective α} {s : TrajectorySample α}

/-- A sample that an objective can follow: its parts have the lengths of the task and finite
entries, and the quaternion of an orientation can be normalized. -/
structure Accepts (o : TrackingObjective α) (s : TrajectorySample α) : Prop where
  value : s.value.size = o.kind.valueDim
  dot : s.dot.size = o.dim
  ddot : s.ddot.size = o.dim
  finite : s.allFinite = true
  orientation : o.kind.isOrientation = true →
    Scalar.isFinite (Quaternion.ofVec s.value 0).norm = true ∧
      ¬ (Quaternion.ofVec s.value 0).norm < Scalar.ofDecimal 1 9

theorem checkSample_eq_ok_iff : o.checkSample s = .ok () ↔ o.Accepts s := by
  have hdim (hk : o.kind.isOrientation = true) := ObjectiveKind.valueDim_of_isOrientation hk
  simp only [checkSample, TrajectorySample.check, Except.guard_bind_eq_ok_iff,
    Except.guard_eq_ok_iff, not_not, Bool.not_eq_false]
  constructor
  · rintro ⟨hvalue, hdot, hddot, hfinite, horientation⟩
    refine ⟨hvalue, hdot, hddot, hfinite, fun hk => ?_⟩
    rw [Quaternion.isNone_ofSample?_iff (hvalue.trans (hdim hk))] at horientation
    exact of_not_not fun hnorm => horientation ⟨hk, hnorm⟩
  · rintro ⟨hvalue, hdot, hddot, hfinite, horientation⟩
    refine ⟨hvalue, hdot, hddot, hfinite, ?_⟩
    rintro ⟨hk, hnone⟩
    exact (Quaternion.isNone_ofSample?_iff (hvalue.trans (hdim hk))).1 hnone (horientation hk)

/-- An accepted value of an orientation has a direction. -/
theorem Accepts.ofSample?_eq (h : o.Accepts s) (hk : o.kind.isOrientation = true) :
    Quaternion.ofSample? s.value = some (Quaternion.ofVec s.value 0).normalize := by
  have hsize : s.value.size = 4 := h.value.trans (ObjectiveKind.valueDim_of_isOrientation hk)
  rw [Quaternion.ofSample?, if_pos hsize]
  exact if_pos (h.orientation hk)

/-- What is accepted is a matter of the kind of an objective. -/
theorem Accepts.of_kind {o' : TrackingObjective α} (h : o.Accepts s) (hkind : o'.kind = o.kind) :
    o'.Accepts s := by
  have hdim : o'.dim = o.dim := congrArg ObjectiveKind.dim hkind
  refine ⟨?_, h.dot.trans hdim.symm, h.ddot.trans hdim.symm, h.finite, ?_⟩
  · rw [hkind]
    exact h.value
  · rw [hkind]
    exact h.orientation

/-- A constant target was accepted when the objective was made. -/
theorem Made.accepts_constant [Spectrum α] (h : o.Made) (hs : o.source = .constant s) :
    o.Accepts s := by
  induction h with
  | create h =>
    rw [eq_of_create_eq_ok h] at hs
    cases hs
  | constantTarget _ h _ =>
    obtain ⟨hcheck, rfl⟩ := withConstantTarget_eq_ok_iff.1 h
    cases hs
    exact (checkSample_eq_ok_iff.1 hcheck).of_kind rfl
  | window _ h ih =>
    obtain ⟨-, rfl⟩ := withWindow_eq_ok_iff.1 h
    exact (ih hs).of_kind rfl
  | phaseScale _ h ih =>
    obtain ⟨-, rfl⟩ := withPhaseScale_eq_ok_iff.1 h
    exact (ih hs).of_kind rfl

/-! ### One objective -/

variable {m : RobotModel α} {state : RobotState α} {phase : PhaseId} {timeInPhase : α}
  {sample sample' : Option (TrajectorySample α)}

/-- An objective asks for its sample: it follows a trajectory, its window is open, and it is bound
in the phase. -/
def Consults (o : TrackingObjective α) (phase : PhaseId) (timeInPhase : α) : Prop :=
  o.source = .trajectory ∧ o.InWindow timeInPhase ∧ ∃ t, o.kind.resolve phase = some t

/-- An objective asks for a sample, and there is none that it accepts. -/
def Lacks (o : TrackingObjective α) (phase : PhaseId) (timeInPhase : α)
    (sample : Option (TrajectorySample α)) : Prop :=
  o.Consults phase timeInPhase ∧ ∀ s ∈ sample, ¬ o.Accepts s

theorem activeTarget_eq_some_iff {t : Target α} : o.activeTarget phase timeInPhase = some t ↔
    o.InWindow timeInPhase ∧ o.kind.resolve phase = some t := by
  rw [activeTarget]
  split <;> simp_all

/-- The sample of an objective that does not ask for it makes no difference. -/
theorem evaluate_congr (h : o.Consults phase timeInPhase → sample' = sample) :
    o.evaluate m state phase timeInPhase sample' =
      o.evaluate m state phase timeInPhase sample := by
  rw [evaluate, evaluate]
  cases htarget : o.activeTarget phase timeInPhase with
  | none => rfl
  | some t =>
    obtain ⟨hwindow, ht⟩ := activeTarget_eq_some_iff.1 htarget
    have hdesired : o.desired sample' = o.desired sample := by
      cases hsource : o.source with
      | constant s => simp only [desired, hsource]
      | trajectory => rw [h ⟨hsource, hwindow, t, ht⟩]
    simp only [hdesired]

/-- An objective that lacks its sample blames the inputs. -/
theorem Lacks.exists_evaluate_eq_input (h : o.Lacks phase timeInPhase sample) :
    ∃ e, o.evaluate m state phase timeInPhase sample = .error (.error (.input e)) := by
  obtain ⟨⟨hsource, hwindow, t, ht⟩, hsample⟩ := h
  rw [evaluate, activeTarget_eq_some_iff.2 ⟨hwindow, ht⟩]
  cases sample with
  | none =>
    have hdesired : o.desired none = .error (.missingSample o.name) := by
      simp only [desired, hsource]
    exact ⟨_, Except.bind_of_eq_error (Attempt.ofExcept_eq_error hdesired)⟩
  | some s =>
    have hdesired : o.desired (some s) = .ok s := by simp only [desired, hsource]
    cases hcheck : o.checkSample s with
    | ok u => exact absurd (checkSample_eq_ok_iff.1 hcheck) (hsample s rfl)
    | error e =>
      dsimp only
      rw [Except.bind_of_eq_ok (Attempt.ofExcept_eq_ok hdesired)]
      exact ⟨e, Except.bind_of_eq_error (Attempt.ofExcept_eq_error hcheck)⟩

/-- The desired trajectory of an objective that does not lack its sample is accepted. -/
theorem exists_desired_eq_ok [Spectrum α] (ho : o.Made) {t : Target α}
    (htarget : o.activeTarget phase timeInPhase = some t)
    (h : ¬ o.Lacks phase timeInPhase sample) : ∃ s, o.desired sample = .ok s ∧ o.Accepts s := by
  obtain ⟨hwindow, ht⟩ := activeTarget_eq_some_iff.1 htarget
  cases hsource : o.source with
  | constant s => exact ⟨s, by simp only [desired, hsource], ho.accepts_constant hsource⟩
  | trajectory =>
    obtain ⟨s, rfl, hs⟩ : ∃ s ∈ sample, o.Accepts s := by
      by_contra hnone
      exact h ⟨⟨hsource, hwindow, t, ht⟩, fun s hs hs' => hnone ⟨s, hs, hs'⟩⟩
    exact ⟨s, by simp only [desired, hsource], hs⟩

end TrackingObjective

omit [Scalar α] in
theorem Served.exists_eq_ok {β : Type} {nq nv : Nat} {query : RobotState α → Except ModelError β}
    {good : β → Prop} (h : Served nq nv query good) {s : RobotState α}
    (hs : checkDimensions nq nv s = .ok ()) : ∃ b, query s = .ok b ∧ good b := by
  cases hquery : query s with
  | error e =>
    rw [h.error s e hquery] at hs
    cases hs
  | ok b => exact ⟨b, rfl, h.ok s b hquery⟩

namespace TrackingObjective

section Evaluation

variable {o : TrackingObjective α} {s : TrajectorySample α} {m : RobotModel α}
  {state : RobotState α} {phase : PhaseId} {timeInPhase : α}
  {sample : Option (TrajectorySample α)} {nq nv nu : Nat} {loops : Option (LoopConstraints α)}

theorem exists_pointMotion_eq_ok {kin : PointKinematics α} (hvalue : s.value.size = 3)
    (hcols : kin.jacobian.length = nv) : ∃ motion, o.pointMotion nv s kin = .ok motion := by
  rw [pointMotion, Attempt.conforming_eq_ok hvalue.ge, taskJacobian, if_pos hcols]
  exact ⟨_, rfl⟩

theorem exists_frameMotion_eq_ok (o : TrackingObjective α) (q : Quaternion α)
    {kin : FrameKinematics α} (hcols : kin.jacobian.length = nv) :
    ∃ motion, o.frameMotion nv q kin = .ok motion := by
  rw [frameMotion, taskJacobian, if_pos hcols]
  exact ⟨_, rfl⟩

/-- A robot that always answers has the motion of every target that it knows. -/
theorem exists_motion_eq_ok (hm : m.Serves nq nv nu loops)
    (hstate : checkDimensions nq nv state = .ok ()) {t : Target α} (ht : t.Known m)
    (hresolve : o.kind.resolve phase = some t) (hs : o.Accepts s) :
    ∃ motion, o.motion m state s t = .ok motion := by
  have hvalue : s.value.size = t.valueDim :=
    hs.value.trans (ObjectiveKind.dim_of_resolve hresolve).2
  cases t with
  | centerOfMass =>
    obtain ⟨kin, hkin, hcols⟩ := hm.centerOfMass.exists_eq_ok hstate
    rw [motion, Except.bind_of_eq_ok (Attempt.ofExcept_eq_ok hkin)]
    exact exists_pointMotion_eq_ok hvalue (hcols.trans hm.numVelocities.symm)
  | point p =>
    obtain ⟨kin, hkin, hcols⟩ := (hm.point p ht).exists_eq_ok hstate
    rw [motion, Except.bind_of_eq_ok (Attempt.ofExcept_eq_ok hkin)]
    exact exists_pointMotion_eq_ok hvalue (hcols.trans hm.numVelocities.symm)
  | frame body =>
    obtain ⟨kin, hkin, hcols⟩ := (hm.frame body ht).exists_eq_ok hstate
    have hq := hs.ofSample?_eq (ObjectiveKind.isOrientation_of_resolve hresolve)
    obtain ⟨motion, hmotion⟩ :=
      o.exists_frameMotion_eq_ok _ (hcols.trans hm.numVelocities.symm)
    refine ⟨motion, ?_⟩
    rw [TrackingObjective.motion, Except.bind_of_eq_ok (Attempt.ofExcept_eq_ok hkin), hq]
    exact Attempt.ofExcept_eq_ok hmotion
  | joint name =>
    obtain ⟨index, hindex⟩ := ht
    obtain ⟨hposition, hvelocity⟩ := hm.jointIndex name index hindex
    obtain ⟨hq, -⟩ := of_checkDimensions_eq_ok hstate
    have hfits : index.velocity < m.numVelocities ∧ 0 < s.value.size ∧
        index.position < state.q.size :=
      ⟨hm.numVelocities ▸ hvelocity, hvalue ▸ Nat.one_pos, hq ▸ hposition⟩
    rw [motion, hindex]
    exact ⟨_, Except.bind_of_eq_ok (Attempt.conforming_eq_ok hfits)⟩

/-- An objective that does not lack its sample has its term. -/
theorem exists_evaluate_eq_ok [Spectrum α] (ho : o.Made) (hknown : ∀ t ∈ o.kind.targets, t.Known m)
    (hm : m.Serves nq nv nu loops) (hstate : checkDimensions nq nv state = .ok ())
    (h : ¬ o.Lacks phase timeInPhase sample) :
    ∃ term, o.evaluate m state phase timeInPhase sample = .ok term := by
  rw [evaluate]
  cases htarget : o.activeTarget phase timeInPhase with
  | none => exact ⟨none, rfl⟩
  | some t =>
    obtain ⟨s, hdesired, hs⟩ := exists_desired_eq_ok ho htarget h
    obtain ⟨-, hresolve⟩ := activeTarget_eq_some_iff.1 htarget
    have ht := hknown t (ObjectiveKind.mem_targets_of_resolve hresolve)
    obtain ⟨motion, hmotion⟩ := exists_motion_eq_ok hm hstate ht hresolve hs
    have hshaped : motion.Shaped o.dim nv := by
      rw [(dim_of_activeTarget htarget).1]
      exact shaped_of_motion hm.toRegular hmotion
    have hfits : o.CommandFits state s motion :=
      ho.wellShaped.commandFits (of_checkDimensions_eq_ok hstate).2 hshaped hs.dot
        hs.ddot
    dsimp only
    rw [Except.bind_of_eq_ok (Attempt.ofExcept_eq_ok hdesired),
      Except.bind_of_eq_ok (Attempt.ofExcept_eq_ok (checkSample_eq_ok_iff.2 hs)),
      Except.bind_of_eq_ok hmotion, Except.bind_of_eq_ok (Attempt.conforming_eq_ok hfits)]
    exact ⟨_, rfl⟩

end Evaluation

end TrackingObjective

end WholeBody
