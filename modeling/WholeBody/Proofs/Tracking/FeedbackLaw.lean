import Mathlib
import WholeBody.Proofs.Linear.Quaternion
import WholeBody.Proofs.SortedMap
import WholeBody.Proofs.Tracking.Samples
import WholeBody.Proofs.Tracking.Weights

/-!
# The feedback law

An objective that is bound to a target in the current phase and whose window is open commands
`ÿ = ÿ_des + K_d (ẏ_des - J v) + K_p e` to that target, and to no other. The law is stated here entry
by entry from what a robot answers, and evaluation is shown to give its term and nothing else.

## Main statements

* `TrackingObjective.motion_eq_ok_iff` — the motion of a target of any kind.
* `TrackingObjective.WellShaped.follows_iff` — the one term that follows the law.
* `evaluate_follows_feedbackLaw` — evaluation has that term, or none.
-/

namespace WholeBody

open Finset

/-! ### Targets -/

/-- A binding has a target in a phase: the one target of all phases, or the entry of this phase. -/
def PhaseBinding.Binds {τ : Type} (phase : PhaseId) (target : τ) : PhaseBinding τ → Prop
  | always target' => target' = target
  | perPhase targets => (phase, target) ∈ targets.entries

theorem PhaseBinding.resolve_eq_some_iff {τ : Type} {b : PhaseBinding τ} {phase : PhaseId}
    {target : τ} : b.resolve phase = some target ↔ b.Binds phase target := by
  cases b with
  | always target' => exact Option.some_inj
  | perPhase targets => exact SortedMap.get?_eq_some_iff

/-- A kind of objective is bound to a target of its own sort in a phase. -/
inductive ObjectiveKind.Binds {α : Type} (phase : PhaseId) : ObjectiveKind α → Target α → Prop
  | centerOfMass {b} (h : b.Binds phase ()) : Binds phase (.centerOfMass b) .centerOfMass
  | point {b p} (h : b.Binds phase p) : Binds phase (.translationalPoint b) (.point p)
  | frame {b body} (h : b.Binds phase body) : Binds phase (.rotationalFrame b) (.frame body)
  | joint {b name} (h : b.Binds phase name) : Binds phase (.jointSpace b) (.joint name)

theorem ObjectiveKind.resolve_eq_some_iff {α : Type} {kind : ObjectiveKind α} {phase : PhaseId}
    {target : Target α} : kind.resolve phase = some target ↔ kind.Binds phase target := by
  constructor
  · intro h
    cases kind with
    | centerOfMass b =>
      obtain ⟨_, hb, rfl⟩ := Option.map_eq_some_iff.1 h
      exact .centerOfMass (PhaseBinding.resolve_eq_some_iff.1 hb)
    | translationalPoint b =>
      obtain ⟨p, hb, rfl⟩ := Option.map_eq_some_iff.1 h
      exact .point (PhaseBinding.resolve_eq_some_iff.1 hb)
    | rotationalFrame b =>
      obtain ⟨body, hb, rfl⟩ := Option.map_eq_some_iff.1 h
      exact .frame (PhaseBinding.resolve_eq_some_iff.1 hb)
    | jointSpace b =>
      obtain ⟨name, hb, rfl⟩ := Option.map_eq_some_iff.1 h
      exact .joint (PhaseBinding.resolve_eq_some_iff.1 hb)
  · intro h
    cases h with
    | centerOfMass hb | point hb | frame hb | joint hb =>
      exact Option.map_eq_some_iff.2 ⟨_, PhaseBinding.resolve_eq_some_iff.2 hb, rfl⟩

/-! ### Motions -/

open TrackingObjective (TaskMotion)

/-- The motion of a point that should be at `value`. -/
structure PointKinematics.MotionTo (kin : PointKinematics ℝ) (value : Vec ℝ) (m : TaskMotion ℝ) :
    Prop where
  jacobian : m.jacobian = kin.jacobian.toMat
  jdotV : m.jdotV = kin.jdotV.toVec
  error : ∀ i < 3, m.error.entry i = value.entry i - kin.position.component i

/-- The motion of a frame that should have the orientation of the quaternion `value`. -/
structure FrameKinematics.MotionTo (kin : FrameKinematics ℝ) (value : Vec ℝ) (m : TaskMotion ℝ) :
    Prop where
  jacobian : m.jacobian = kin.jacobian.toMat
  jdotV : m.jdotV = kin.jdotV.toVec
  error : m.error =
    (orientationError (Quaternion.ofVec value 0).normalize kin.orientation).toVec

/-- The motion of a joint that should be at `value`. Its place in `v` gives the Jacobian, and its
place in `q` the error. -/
structure JointIndex.MotionTo (index : JointIndex) (q value : Vec ℝ) (m : TaskMotion ℝ) :
    Prop where
  jacobian : ∀ j, m.jacobian.entry 0 j = if j = index.velocity then 1 else 0
  jdotV : m.jdotV.entry 0 = 0
  error : m.error.entry 0 = value.entry 0 - q.entry index.position

/-- The motion of a target, as a robot answers for it. -/
def Target.MotionTo (model : RobotModel ℝ) (state : RobotState ℝ) (value : Vec ℝ)
    (m : TaskMotion ℝ) : Target ℝ → Prop
  | centerOfMass => ∃ kin, model.centerOfMass state = .ok kin ∧ kin.MotionTo value m
  | point p => ∃ kin, model.point state p = .ok kin ∧ kin.MotionTo value m
  | frame body => ∃ kin, model.frame state body = .ok kin ∧ kin.MotionTo value m
  | joint name => ∃ index, model.jointIndex name = some index ∧ index.MotionTo state.q value m

namespace TrackingObjective

variable {o : TrackingObjective ℝ} {model : RobotModel ℝ} {state : RobotState ℝ}
  {s : TrajectorySample ℝ} {m : TaskMotion ℝ} {nq nv nu : ℕ}

theorem TaskMotion.eq_mk (m : TaskMotion ℝ) {J : Mat ℝ} {jdotV error : Vec ℝ}
    (hJ : m.jacobian = J) (hjdotV : m.jdotV = jdotV) (herror : m.error = error) :
    m = ⟨J, jdotV, error⟩ := by
  rw [← hJ, ← hjdotV, ← herror]

/-- The columns of a Jacobian with the shape of a motion. -/
theorem TaskMotion.Shaped.length_eq {jacobian : Jacobian3 ℝ} {dim : ℕ} (h : m.Shaped dim nv)
    (hJ : m.jacobian = jacobian.toMat) : jacobian.length = nv :=
  (congrArg Mat.cols hJ).symm.trans h.jacobian.2

theorem pointMotion_eq_ok_iff {kin : PointKinematics ℝ} (hvalue : s.value.size = 3) :
    o.pointMotion nv s kin = .ok m ↔ kin.MotionTo s.value m ∧ m.Shaped 3 nv := by
  have herror : ∀ i < 3, (Vec3.ofVec s.value 0 - kin.position).toVec.entry i =
      s.value.entry i - kin.position.component i := by
    intro i hi
    interval_cases i <;> rfl
  rw [pointMotion, Attempt.conforming_eq_ok hvalue.ge, Except.bind_of_eq_ok rfl]
  simp only [Except.bind_eq_ok_iff, Attempt.ofExcept_eq_ok_iff, taskJacobian_eq_ok_iff]
  constructor
  · rintro ⟨_, ⟨hcols, rfl⟩, h⟩
    cases h
    exact ⟨⟨rfl, rfl, herror⟩, ⟨⟨rfl, hcols⟩, rfl, rfl⟩⟩
  · rintro ⟨hm, hshaped⟩
    refine ⟨_, ⟨hshaped.length_eq hm.jacobian, rfl⟩, congrArg Except.ok (Eq.symm ?_)⟩
    refine m.eq_mk hm.jacobian hm.jdotV (Vec.ext_entry hshaped.error fun i hi => ?_)
    have hi : i < 3 := hi.trans_eq hshaped.error
    rw [hm.error i hi, herror i hi]

theorem frameMotion_eq_ok_iff {kin : FrameKinematics ℝ} :
    o.frameMotion nv (Quaternion.ofVec s.value 0).normalize kin = .ok m ↔
      kin.MotionTo s.value m ∧ m.Shaped 3 nv := by
  simp only [frameMotion, Except.bind_eq_ok_iff, taskJacobian_eq_ok_iff]
  constructor
  · rintro ⟨_, ⟨hcols, rfl⟩, h⟩
    cases h
    exact ⟨⟨rfl, rfl, rfl⟩, ⟨⟨rfl, hcols⟩, rfl, rfl⟩⟩
  · rintro ⟨hm, hshaped⟩
    refine ⟨_, ⟨hshaped.length_eq hm.jacobian, rfl⟩, congrArg Except.ok (Eq.symm ?_)⟩
    exact m.eq_mk hm.jacobian hm.jdotV hm.error

theorem jointMotion_eq_iff {index : JointIndex} (hvelocity : index.velocity < nv) :
    jointMotion nv s state index = m ↔ index.MotionTo state.q s.value m ∧ m.Shaped 1 nv := by
  have hrow (j : ℕ) : (jointMotion nv s state index).jacobian.entry 0 j =
      if j = index.velocity then 1 else 0 := by
    rw [jointMotion, Mat.entry_ofFn]
    split
    · rfl
    · rw [if_neg (by omega)]
  constructor
  · rintro rfl
    exact ⟨⟨hrow, Vec.entry_zeros 1, rfl⟩, ⟨⟨rfl, rfl⟩, Vec.size_zeros 1, rfl⟩⟩
  · rintro ⟨hm, hshaped⟩
    obtain ⟨hrows, hcols⟩ := hshaped.jacobian
    have hsize : m.error.size = (jointMotion nv s state index).error.size := hshaped.error
    refine (m.eq_mk (Mat.ext_entry hrows hcols fun i hi j _ => ?_)
      (Vec.ext_entry (hshaped.jdotV.trans (Vec.size_zeros 1).symm) fun i hi => ?_)
      (Vec.ext_entry hsize fun i hi => ?_)).symm
    · obtain rfl : i = 0 := by omega
      exact (hm.jacobian j).trans (hrow j).symm
    · obtain rfl : i = 0 := Nat.lt_one_iff.1 (hi.trans_eq hshaped.jdotV)
      rw [hm.jdotV, Vec.entry_zeros]
    · obtain rfl : i = 0 := Nat.lt_one_iff.1 (hi.trans_eq hshaped.error)
      exact hm.error

/-- The motion of a target of any kind, towards an accepted value. -/
theorem motion_eq_ok_iff (hmodel : model.Regular nq nv nu) (hq : state.q.size = nq)
    {phase : PhaseId} {t : Target ℝ} (ht : o.kind.resolve phase = some t) (hs : o.Accepts s) :
    o.motion model state s t = .ok m ↔
      t.MotionTo model state s.value m ∧ m.Shaped o.dim model.numVelocities := by
  obtain ⟨hdim, hvalueDim⟩ := ObjectiveKind.dim_of_resolve ht
  have hvalue : s.value.size = t.valueDim := hs.value.trans hvalueDim
  rw [TrackingObjective.dim, hdim]
  cases t with
  | centerOfMass =>
    simp only [motion, Except.bind_eq_ok_iff, Attempt.ofExcept_eq_ok_iff,
      pointMotion_eq_ok_iff hvalue, Target.MotionTo, exists_and_right, ← and_assoc, Target.dim]
  | point p =>
    simp only [motion, Except.bind_eq_ok_iff, Attempt.ofExcept_eq_ok_iff,
      pointMotion_eq_ok_iff hvalue, Target.MotionTo, exists_and_right, ← and_assoc, Target.dim]
  | frame body =>
    rw [motion, hs.ofSample?_eq (ObjectiveKind.isOrientation_of_resolve ht)]
    simp only [Except.bind_eq_ok_iff, Attempt.ofExcept_eq_ok_iff, frameMotion_eq_ok_iff,
      Target.MotionTo, exists_and_right, ← and_assoc, Target.dim]
  | joint name =>
    rw [motion]
    cases hindex : model.jointIndex name with
    | none => simp [Target.MotionTo, hindex, Attempt.fail]
    | some index =>
      obtain ⟨hposition, hvelocity⟩ := hmodel.jointIndex name index hindex
      rw [← hmodel.numVelocities] at hvelocity
      have hfits : index.velocity < model.numVelocities ∧ 0 < s.value.size ∧
          index.position < state.q.size := ⟨hvelocity, hvalue ▸ Nat.one_pos, hq ▸ hposition⟩
      dsimp only
      rw [Except.bind_of_eq_ok (Attempt.conforming_eq_ok hfits)]
      refine (Except.ok.injEq _ _).to_iff.trans ((jointMotion_eq_iff hvelocity).trans ?_)
      simp only [Target.MotionTo, hindex, Option.some.injEq, exists_eq_left', Target.dim]

end TrackingObjective

/-! ### Terms -/

/-- The motion that a term is about. -/
def TaskTerm.motion (term : TaskTerm ℝ) : TaskMotion ℝ :=
  ⟨term.jacobian, term.jdotV, term.error⟩

namespace TrackingObjective

variable {o : TrackingObjective ℝ} {model : RobotModel ℝ} {state : RobotState ℝ}
  {phase : PhaseId} {s : TrajectorySample ℝ} {t : Target ℝ} {term : TaskTerm ℝ}
  {nq nv nu : ℕ}

/-- A term follows the feedback law of an objective towards the sample `s`. -/
structure Follows (o : TrackingObjective ℝ) (model : RobotModel ℝ) (state : RobotState ℝ)
    (phase : PhaseId) (s : TrajectorySample ℝ) (t : Target ℝ) (term : TaskTerm ℝ) : Prop where
  name : term.name = o.name
  shaped : term.motion.Shaped o.dim model.numVelocities
  motion : t.MotionTo model state s.value term.motion
  size_ddyCmd : term.ddyCmd.size = o.dim
  ddyCmd : ∀ i < o.dim, term.ddyCmd.entry i = s.ddot.entry i
    + ∑ j ∈ range o.dim, o.gains.kd.entry i j *
        (s.dot.entry j - ∑ k ∈ range model.numVelocities, term.jacobian.entry j k * state.v.entry k)
    + ∑ j ∈ range o.dim, o.gains.kp.entry i j * term.error.entry j
  size_weight : term.weight.IsSize o.dim
  weight : ∀ i < o.dim, ∀ j < o.dim,
    term.weight.entry i j = (o.phaseScales.get? phase).getD 1 * o.weight.entry i j

theorem entry_effectiveWeight (o : TrackingObjective ℝ) (phase : PhaseId) (i j : ℕ) :
    (o.effectiveWeight phase).entry i j =
      (o.phaseScales.get? phase).getD 1 * o.weight.entry i j := by
  rw [effectiveWeight]
  cases o.phaseScales.get? phase with
  | none => exact (one_mul _).symm
  | some scale => exact Mat.entry_smul scale

theorem size_command (o : TrackingObjective ℝ) (s : TrajectorySample ℝ) (velocity error : Vec ℝ) :
    (o.command s velocity error).size = s.ddot.size := by
  rw [command, Vec.size_add, Vec.size_add]

theorem entry_command {n : ℕ} (hkp : o.gains.kp.IsSize n) (hkd : o.gains.kd.IsSize n)
    (hdot : s.dot.size = n) (hddot : s.ddot.size = n) {velocity : Vec ℝ}
    (hvelocity : velocity.size = n) (error : Vec ℝ) (i : ℕ) :
    (o.command s velocity error).entry i = s.ddot.entry i
      + ∑ j ∈ range n, o.gains.kd.entry i j * (s.dot.entry j - velocity.entry j)
      + ∑ j ∈ range n, o.gains.kp.entry i j * error.entry j := by
  have hrate (j : ℕ) : (s.dot - velocity).entry j = s.dot.entry j - velocity.entry j :=
    Vec.entry_sub (hvelocity.trans hdot.symm).le
  have hd : (o.gains.kd.mulVec (s.dot - velocity)).size ≤ s.ddot.size := by
    rw [Mat.size_mulVec, hkd.1, hddot]
  have hp : (o.gains.kp.mulVec error).size ≤
      (s.ddot + o.gains.kd.mulVec (s.dot - velocity)).size := by
    rw [Vec.size_add, Mat.size_mulVec, hkp.1, hddot]
  rw [command, Vec.entry_add hp, Vec.entry_add hd, Mat.entry_mulVec, Mat.entry_mulVec, hkd.2,
    hkp.2]
  simp only [hrate]

/-- One term follows the law with a motion. -/
theorem WellShaped.follows_iff (ho : o.WellShaped) (hs : o.Accepts s) :
    o.Follows model state phase s t term ↔ ∃ m : TaskMotion ℝ,
      t.MotionTo model state s.value m ∧ m.Shaped o.dim model.numVelocities ∧
        o.term phase state s m = term := by
  have hentry {m : TaskMotion ℝ} (hm : m.Shaped o.dim model.numVelocities) (i : ℕ) :
      (o.term phase state s m).ddyCmd.entry i = s.ddot.entry i
        + ∑ j ∈ range o.dim, o.gains.kd.entry i j * (s.dot.entry j
          - ∑ k ∈ range model.numVelocities, m.jacobian.entry j k * state.v.entry k)
        + ∑ j ∈ range o.dim, o.gains.kp.entry i j * m.error.entry j := by
    obtain ⟨hrows, hcols⟩ := hm.jacobian
    rw [TrackingObjective.term,
      entry_command ho.kp ho.kd hs.dot hs.ddot ((Mat.size_mulVec _ _).trans hrows)]
    simp only [Mat.entry_mulVec, hcols]
  constructor
  · intro h
    refine ⟨term.motion, h.motion, h.shaped, ?_⟩
    have hsize : (o.term phase state s term.motion).ddyCmd.size = o.dim :=
      (o.size_command s _ _).trans hs.ddot
    have hddyCmd : (o.term phase state s term.motion).ddyCmd = term.ddyCmd := by
      refine Vec.ext_entry (hsize.trans h.size_ddyCmd.symm) fun i hi => ?_
      rw [hentry h.shaped, h.ddyCmd i (hi.trans_eq hsize)]
      rfl
    obtain ⟨hrows, hcols⟩ := ho.isSize_effectiveWeight phase
    have hweight : o.effectiveWeight phase = term.weight := by
      refine Mat.ext_entry (hrows.trans h.size_weight.1.symm) (hcols.trans h.size_weight.2.symm)
        fun i hi j hj => ?_
      rw [o.entry_effectiveWeight, h.weight i (hi.trans_eq hrows) j (hj.trans_eq hcols)]
    cases term
    exact (TaskTerm.mk.injEq ..).mpr ⟨h.name.symm, rfl, rfl, hddyCmd, hweight, rfl⟩
  · rintro ⟨m, hmotion, hshaped, rfl⟩
    exact ⟨rfl, hshaped, hmotion, (o.size_command s _ _).trans hs.ddot,
      fun i _ => hentry hshaped i, ho.isSize_effectiveWeight phase,
      fun i _ j _ => o.entry_effectiveWeight phase i j⟩

/-! ### Evaluation -/

/-- The sample that an objective follows: its constant, if it has one, and otherwise the given one. -/
def Desires (o : TrackingObjective ℝ) (given : Option (TrajectorySample ℝ))
    (s : TrajectorySample ℝ) : Prop :=
  o.source = .constant s ∨ o.source = .trajectory ∧ given = some s

theorem desired_eq_ok_iff {given : Option (TrajectorySample ℝ)} :
    o.desired given = .ok s ↔ o.Desires given s := by
  cases hsource : o.source with
  | constant s' => simp [desired, Desires, hsource]
  | trajectory => cases given <;> simp [desired, Desires, hsource]

theorem inWindow_iff {timeInPhase : ℝ} : o.InWindow timeInPhase ↔
    ∀ w ∈ o.window, w.start ≤ timeInPhase ∧ timeInPhase ≤ w.stop := by
  rw [InWindow]
  cases o.window with
  | none => simp
  | some w => simp [ActiveWindow.Contains]

theorem activeTarget_eq_some_iff_binds {timeInPhase : ℝ} :
    o.activeTarget phase timeInPhase = some t ↔
      (∀ w ∈ o.window, w.start ≤ timeInPhase ∧ timeInPhase ≤ w.stop) ∧ o.kind.Binds phase t := by
  rw [activeTarget_eq_some_iff, inWindow_iff, ObjectiveKind.resolve_eq_some_iff]

theorem activeTarget_eq_none_iff_binds {timeInPhase : ℝ} :
    o.activeTarget phase timeInPhase = none ↔
      (∃ w ∈ o.window, timeInPhase < w.start ∨ w.stop < timeInPhase) ∨
        ∀ t, ¬ o.kind.Binds phase t := by
  have hclosed : (∃ w ∈ o.window, timeInPhase < w.start ∨ w.stop < timeInPhase) ↔
      ¬ ∀ w ∈ o.window, w.start ≤ timeInPhase ∧ timeInPhase ≤ w.stop := by
    simp only [not_forall, not_and_or, not_le, exists_prop]
  rw [Option.eq_none_iff_forall_ne_some, hclosed]
  simp only [ne_eq, activeTarget_eq_some_iff_binds, not_and]
  rw [forall_comm, imp_iff_not_or]

variable {timeInPhase : ℝ} {given : Option (TrajectorySample ℝ)}

theorem evaluate_eq_ok_none_iff : o.evaluate model state phase timeInPhase given = .ok none ↔
    o.activeTarget phase timeInPhase = none := by
  constructor
  · intro h
    obtain ⟨hnone, -⟩ | ⟨_, _, _, -, hsome⟩ := of_evaluate_eq_ok h
    · exact hnone
    · cases hsome
  · intro h
    rw [evaluate, h]

theorem evaluate_eq_ok_some_iff (ho : o.WellShaped) (hmodel : model.Regular nq nv nu)
    (hstate : state.q.size = nq ∧ state.v.size = nv) :
    o.evaluate model state phase timeInPhase given = .ok (some term) ↔
      ∃ t s, o.activeTarget phase timeInPhase = some t ∧ o.Desires given s ∧ o.Accepts s ∧
        o.Follows model state phase s t term := by
  rw [evaluate]
  cases htarget : o.activeTarget phase timeInPhase with
  | none => simp
  | some t =>
    have ht : o.kind.resolve phase = some t := (activeTarget_eq_some_iff.1 htarget).2
    simp only [Except.bind_eq_ok_iff, Attempt.ofExcept_eq_ok_iff, desired_eq_ok_iff]
    constructor
    · rintro ⟨s, hdesired, _, hcheck, m, hm, _, -, h⟩
      cases h
      have hs := checkSample_eq_ok_iff.1 hcheck
      obtain ⟨hmotion, hshaped⟩ := (motion_eq_ok_iff hmodel hstate.1 ht hs).1 hm
      exact ⟨t, s, rfl, hdesired, hs, (ho.follows_iff hs).2 ⟨m, hmotion, hshaped, rfl⟩⟩
    · rintro ⟨_, s, ⟨⟩, hdesired, hs, hfollows⟩
      obtain ⟨m, hmotion, hshaped, rfl⟩ := (ho.follows_iff hs).1 hfollows
      have hm := (motion_eq_ok_iff hmodel hstate.1 ht hs).2 ⟨hmotion, hshaped⟩
      have hfits : o.CommandFits state s m :=
        ho.commandFits (hstate.2.trans hmodel.numVelocities.symm) hshaped hs.dot hs.ddot
      exact ⟨s, hdesired, (), checkSample_eq_ok_iff.2 hs, m, hm, (), Attempt.conforming_eq_ok hfits, rfl⟩

end TrackingObjective

/-- Evaluation has no term exactly when the window excludes the time, or nothing is bound in the
phase. It has a term exactly when the window contains the time and there is an acceptable sample to
follow, and then the term is the one that follows the feedback law towards that sample for the target
that is bound in this phase. -/
theorem evaluate_follows_feedbackLaw [Spectrum ℝ] {o : TrackingObjective ℝ} (ho : o.Made)
    {model : RobotModel ℝ} {nq nv nu : ℕ} (hmodel : model.Regular nq nv nu)
    {state : RobotState ℝ} (hstate : state.q.size = nq ∧ state.v.size = nv) (phase : PhaseId)
    (timeInPhase : ℝ) (given : Option (TrajectorySample ℝ)) :
    (o.evaluate model state phase timeInPhase given = .ok none ↔
      (∃ w ∈ o.window, timeInPhase < w.start ∨ w.stop < timeInPhase) ∨
        ∀ t, ¬ o.kind.Binds phase t) ∧
    ∀ term, o.evaluate model state phase timeInPhase given = .ok (some term) ↔
      (∀ w ∈ o.window, w.start ≤ timeInPhase ∧ timeInPhase ≤ w.stop) ∧
        ∃ t s, o.kind.Binds phase t ∧ o.Desires given s ∧ o.Accepts s ∧
          o.Follows model state phase s t term := by
  refine ⟨?_, fun term => ?_⟩
  · rw [TrackingObjective.evaluate_eq_ok_none_iff,
      TrackingObjective.activeTarget_eq_none_iff_binds]
  · rw [TrackingObjective.evaluate_eq_ok_some_iff ho.wellShaped hmodel hstate]
    simp only [TrackingObjective.activeTarget_eq_some_iff_binds, and_assoc, exists_and_left]

/-- A foot swings to a place below the pelvis: on the left leg it is the right toe, which is off to the
side, and on both legs there is none. -/
theorem evaluate_follows_feedbackLaw_swingFoot :
    let _ : Spectrum ℝ := ⟨fun m => m.entry 0 0⟩
    let r : FloatingBody ℝ := ⟨"pelvis", 1, .identity, 10, false, [], none, none⟩
    let state : RobotState ℝ := ⟨.ofList [0, 0, 1, 1, 0, 0, 0], .zeros 6⟩
    let left : BodyPoint ℝ := ⟨"pelvis", ⟨0, 1, -1⟩⟩
    let right : BodyPoint ℝ := ⟨"pelvis", ⟨0, -1, -1⟩⟩
    let foot : ObjectiveKind ℝ :=
      .translationalPoint (.perPhase (.ofList [(.leftStance, right), (.rightStance, left)]))
    let sample : TrajectorySample ℝ := ⟨.zeros 3, Vec3.toVec ⟨1, 0, 0⟩, .zeros 3⟩
    ∃ swing term,
      TrackingObjective.create "swing_foot" foot (.uniform 3 100 10) (.identity 3) = .ok swing ∧
      swing.evaluate r.model state .doubleStance 0 (some sample) = .ok none ∧
      swing.evaluate r.model state .leftStance 0 (some sample) = .ok (some term) ∧
      (term.error.entry 0 = 0 ∧ term.error.entry 1 = 1 ∧ term.error.entry 2 = 0) ∧
      term.ddyCmd.entry 0 = 10 ∧ term.ddyCmd.entry 1 = 100 ∧ term.ddyCmd.entry 2 = 0 := by
  intro _ r state left right foot sample
  let swing : TrackingObjective ℝ :=
    ⟨"swing_foot", foot, .uniform 3 100 10, .identity 3, .empty, none, .trajectory⟩
  have hleast : ∀ m ∈ [Mat.scalarMatrix 3 (100 : ℝ), .scalarMatrix 3 10, .identity 3],
      0 ≤ m.entry 0 0 := by
    simp [Mat.scalarMatrix, Mat.identity, Mat.diagonal]
  have hswing : TrackingObjective.create "swing_foot" foot (.uniform 3 100 10) (.identity 3) =
      .ok swing := TrackingObjective.create_uniform_eq_ok hleast
  obtain ⟨term, hterm⟩ : ∃ term, swing.evaluate r.model state .leftStance 0 (some sample) =
      .ok (some term) := ⟨_, rfl⟩
  have hlaw (phase : PhaseId) := evaluate_follows_feedbackLaw (.create hswing)
    r.serves.toRegular (⟨rfl, rfl⟩ : state.q.size = r.numPositions ∧ state.v.size = r.numVelocities)
    phase 0 (some sample)
  have hleft : foot.resolve .leftStance = some (.point right) := rfl
  have hdouble : foot.resolve .doubleStance = none := rfl
  refine ⟨swing, term, hswing, (hlaw .doubleStance).1.2 (.inr fun t ht => ?_), hterm, ?_⟩
  · have hsome := hdouble.symm.trans (ObjectiveKind.resolve_eq_some_iff.2 ht)
    cases hsome
  · obtain ⟨-, t, s, hbinds, hdesires, -, hfollows⟩ := ((hlaw .leftStance).2 term).1 hterm
    obtain rfl : t = .point right :=
      Option.some.inj ((ObjectiveKind.resolve_eq_some_iff.2 hbinds).symm.trans hleft)
    obtain rfl : s = sample := by
      obtain hsource | ⟨-, hgiven⟩ := hdesires
      · cases hsource
      · exact (Option.some.inj hgiven).symm
    obtain ⟨kin, hkin, hmotion⟩ := hfollows.motion
    obtain rfl : kin = r.pointKinematics state right.offset := (Except.ok.inj hkin).symm
    have hturn : FloatingBody.orientation state = .one := by
      refine Quaternion.normalize_of_normSq_eq_one ?_
      simp [state, Quaternion.ofVec, Quaternion.normSq, Vec.entry, Vec.ofList]
    have harm : (FloatingBody.orientation state).rotate right.offset = ⟨0, -1, -1⟩ := by
      rw [hturn, Quaternion.rotate_one]
    have hposition : (r.pointKinematics state right.offset).position = ⟨0, -1, 0⟩ := by
      rw [FloatingBody.pointKinematics, harm]
      simp [state, FloatingBody.position, Vec3.ofVec, Vec3.add_def, Vec.entry, Vec.ofList]
    have herror (i : ℕ) (hi : i < 3) : term.error.entry i =
        0 - (⟨0, -1, 0⟩ : Vec3 ℝ).component i :=
      (hmotion.error i hi).trans (by rw [hposition, Vec.entry_zeros])
    have h₀ := herror 0 (by decide)
    have h₁ := herror 1 (by decide)
    have h₂ := herror 2 (by decide)
    simp only [Vec3.component, sub_zero, sub_neg_eq_add, zero_add] at h₀ h₁ h₂
    have hcommand : ∀ i < 3, term.ddyCmd.entry i = (⟨10, 100, 0⟩ : Vec3 ℝ).component i := by
      intro i hi
      have hdim : swing.dim = 3 := rfl
      rw [hfollows.ddyCmd i hi, hdim]
      interval_cases i <;>
        simp [Finset.sum_range_succ, h₀, h₁, h₂, swing, sample, state, FeedbackGains.uniform,
          Mat.scalarMatrix, Vec3.component]
    exact ⟨⟨h₀, h₁, h₂⟩, hcommand 0 (by decide), hcommand 1 (by decide), hcommand 2 (by decide)⟩

end WholeBody
