import Mathlib
import WholeBody.Proofs.Controller.Run
import WholeBody.Proofs.Robot.Serving

/-!
# What the checks at the start rule out

Every body and joint that a tick may ask for, in whatever phase, has been looked up when the
controller was made. So a tick has no lookup to fail at while the robot keeps its bodies, joints and
actuators: what it reports of the model is an error of the robot's own, an answer of the wrong shape,
or a program that is not finite.

## Main statements

* `RobotModel.Reports`, `RobotModel.Misshapes` — the errors that are the robot's.
* `Controller.FitFor` — what the checks at the start leave behind.
* `Controller.FitFor.of_prepare_eq_error` — where an error of one tick comes from.
* `model_errors_of_run` — the errors of every run.
* `not_every_lookup_settled_at_start` — lookups that the checks at the start do not settle.
-/

namespace WholeBody

variable {σ α : Type}

/-! ### Errors of a robot -/

namespace RobotModel

/-- The errors that a robot answers with, unless it is asked for a body that it does not have. -/
inductive Reports (m : RobotModel α) (s : RobotState α) : ModelError → Prop
  | checkState {e} (h : m.checkState s = .error e) : m.Reports s e
  | massMatrix {e} (h : m.massMatrix s = .error e) : m.Reports s e
  | bias {e} (h : m.bias s = .error e) : m.Reports s e
  | centerOfMass {e} (h : m.centerOfMass s = .error e) : m.Reports s e
  | point {p e} (hbody : m.hasBody p.body = true) (h : m.point s p = .error e) : m.Reports s e
  | frame {body e} (hbody : m.hasBody body = true) (h : m.frame s body = .error e) : m.Reports s e
  | loopConstraints {e} (h : m.loopConstraints s = .error e) : m.Reports s e

/-- The errors of answers that do not have the shape they should have. -/
inductive Misshapes (m : RobotModel α) (s : RobotState α) : ModelError → Prop
  | massMatrix {M e} (hM : m.massMatrix s = .ok M)
    (h : checkShape "mass matrix" (M.rows, M.cols) (m.numVelocities, m.numVelocities) = .error e) :
    m.Misshapes s e
  | bias {b e} (hb : m.bias s = .ok b)
    (h : checkShape "dynamics bias" (b.size, 1) (m.numVelocities, 1) = .error e) : m.Misshapes s e
  | actuation {e} (h : checkShape "actuation matrix" (m.actuation.rows, m.actuation.cols)
    (m.numVelocities, m.numActuators) = .error e) : m.Misshapes s e
  | centerOfMass {kin what e} (hkin : m.centerOfMass s = .ok kin)
    (h : checkColumns what kin.jacobian.length m.numVelocities = .error e) : m.Misshapes s e
  | point {p kin what e} (hbody : m.hasBody p.body = true) (hkin : m.point s p = .ok kin)
    (h : checkColumns what kin.jacobian.length m.numVelocities = .error e) : m.Misshapes s e
  | frame {body kin what e} (hbody : m.hasBody body = true) (hkin : m.frame s body = .ok kin)
    (h : checkColumns what kin.jacobian.length m.numVelocities = .error e) : m.Misshapes s e
  | loopConstraints {loops e} (hl : m.loopConstraints s = .ok loops)
    (h : TickData.checkLoops m.numVelocities loops = .error e) : m.Misshapes s e

/-- Points and frames miss only bodies that the robot does not have, and joints and effort limits
are those of `robot`. -/
structure LooksUpAs (m robot : RobotModel α) : Prop where
  point : ∀ s p body, m.point s p = .error (.unknownBody body) → m.hasBody p.body = false
  frame : ∀ s name body, m.frame s name = .error (.unknownBody body) → m.hasBody name = false
  jointIndex : m.jointIndex = robot.jointIndex
  effortLimits : m.effortLimits = robot.effortLimits

end RobotModel

/-- The errors of a body, a joint or effort limits that are not there. -/
def ModelError.IsLookup : ModelError → Prop
  | unknownBody _ | unknownJoint _ | effortLimits _ _ => True
  | _ => False

theorem of_checkShape_eq_error {what : String} {got expected : Nat × Nat} {e : ModelError}
    (h : checkShape what got expected = .error e) :
    got ≠ expected ∧ e = .shape what expected.1 expected.2 got.1 got.2 := by
  rw [checkShape] at h
  split at h
  · cases h
  · rename_i hne
    cases h
    exact ⟨hne, rfl⟩

theorem of_checkColumns_eq_error {what : String} {got expected : Nat} {e : ModelError}
    (h : checkColumns what got expected = .error e) :
    got ≠ expected ∧ e = .jacobianColumns what expected got := by
  rw [checkColumns] at h
  split at h
  · cases h
  · rename_i hne
    cases h
    exact ⟨hne, rfl⟩

/-- The errors of loop constraints with the wrong shape. -/
theorem of_checkLoops_eq_error {nv : Nat} {loops : Option (LoopConstraints α)} {e : ModelError}
    (h : TickData.checkLoops nv loops = .error e) : ∃ l ∈ loops,
      l.jacobian.cols ≠ nv ∧ e = .jacobianColumns "loop constraint jacobian" nv l.jacobian.cols ∨
      l.jdotV.size ≠ l.jacobian.rows ∧
        e = .shape "loop constraint bias" l.jacobian.rows 1 l.jdotV.size 1 := by
  cases loops with
  | none => cases h
  | some l =>
    refine ⟨l, rfl, ?_⟩
    obtain h | ⟨_, -, h⟩ := Except.of_bind_eq_error h
    · exact .inl (of_checkColumns_eq_error h)
    · obtain ⟨hne, rfl⟩ := of_checkShape_eq_error h
      exact .inr ⟨fun hsize => hne (by rw [hsize]), rfl⟩

/-- A wrong shape is not a failed lookup. -/
theorem RobotModel.Misshapes.not_isLookup {m : RobotModel α} {s : RobotState α} {e : ModelError}
    (h : m.Misshapes s e) : ¬ e.IsLookup := by
  cases h with
  | massMatrix _ h | bias _ h | actuation h =>
    rw [(of_checkShape_eq_error h).2]
    exact id
  | centerOfMass _ h | point _ _ h | frame _ _ h =>
    rw [(of_checkColumns_eq_error h).2]
    exact id
  | loopConstraints _ h =>
    obtain ⟨l, -, ⟨-, rfl⟩ | ⟨-, rfl⟩⟩ := of_checkLoops_eq_error h <;> exact id

namespace RobotModel.Serves

variable {m : RobotModel α} {s : RobotState α} {e : ModelError} {nq nv nu : Nat}
  {loops : Option (LoopConstraints α)}

/-- A robot that always answers reports nothing but the dimensions of a state. -/
theorem eq_of_reports (h : m.Serves nq nv nu loops) (he : m.Reports s e) :
    e = .stateDimension nq nv s.q.size s.v.size := by
  have hcheck : checkDimensions nq nv s = .error e := by
    cases he with
    | checkState he => rwa [← h.checkState]
    | massMatrix he => exact h.massMatrix.error s e he
    | bias he => exact h.bias.error s e he
    | centerOfMass he => exact h.centerOfMass.error s e he
    | point hbody he => exact (h.point _ hbody).error s e he
    | frame hbody he => exact (h.frame _ hbody).error s e he
    | loopConstraints he => exact h.loopConstraints.error s e he
  rw [checkDimensions] at hcheck
  split at hcheck <;> cases hcheck
  rfl

/-- A robot that always answers misses only bodies that it does not have. -/
theorem looksUpAs (h : m.Serves nq nv nu loops) : m.LooksUpAs m where
  point s p body he := by
    by_contra hbody
    cases h.eq_of_reports (.point (eq_true_of_ne_false hbody) he)
  frame s name body he := by
    by_contra hbody
    cases h.eq_of_reports (.frame (eq_true_of_ne_false hbody) he)
  jointIndex := rfl
  effortLimits := rfl

/-- Only the loops of a robot that always answers can have the wrong shape. -/
theorem checkLoops_of_misshapes (h : m.Serves nq nv nu loops) (he : m.Misshapes s e) :
    TickData.checkLoops nv loops = .error e := by
  cases he with
  | massMatrix hM he =>
    obtain ⟨hrows, hcols⟩ := h.massMatrix.ok s _ hM
    exact absurd (by rw [hrows, hcols, h.numVelocities]) (of_checkShape_eq_error he).1
  | bias hb he =>
    have hsize := h.bias.ok s _ hb
    exact absurd (by rw [hsize, h.numVelocities]) (of_checkShape_eq_error he).1
  | actuation he =>
    obtain ⟨hrows, hcols⟩ := h.actuation
    exact absurd (by rw [hrows, hcols, h.numVelocities, h.numActuators])
      (of_checkShape_eq_error he).1
  | centerOfMass hkin he =>
    have hcols := h.centerOfMass.ok s _ hkin
    exact absurd (hcols.trans h.numVelocities.symm) (of_checkColumns_eq_error he).1
  | point hbody hkin he =>
    have hcols := (h.point _ hbody).ok s _ hkin
    exact absurd (hcols.trans h.numVelocities.symm) (of_checkColumns_eq_error he).1
  | frame hbody hkin he =>
    have hcols := (h.frame _ hbody).ok s _ hkin
    exact absurd (hcols.trans h.numVelocities.symm) (of_checkColumns_eq_error he).1
  | loopConstraints hl he =>
    rw [← h.loopConstraints.ok s _ hl, ← h.numVelocities]
    exact he

end RobotModel.Serves

variable [Scalar α]

/-! ### Where an error comes from -/

section Origin

variable {m : RobotModel α} {s : RobotState α} {e : ModelError}

namespace TrackingObjective

variable {o : TrackingObjective α} {sample : TrajectorySample α}

theorem of_taskJacobian_eq_error {jacobian : Jacobian3 α} {nv : Nat}
    (h : o.taskJacobian jacobian nv = .error e) : ∃ what,
      checkColumns what jacobian.length nv = .error e := by
  refine ⟨s!"jacobian of objective '{o.name}'", ?_⟩
  rw [taskJacobian] at h
  rw [checkColumns]
  split at h
  · cases h
  · rename_i hne
    rw [if_neg hne]
    cases h
    rfl

theorem of_pointMotion_eq_error {nv : Nat} {kin : PointKinematics α}
    (h : o.pointMotion nv sample kin = .error (.error (.model e))) : ∃ what,
      checkColumns what kin.jacobian.length nv = .error e := by
  obtain h | ⟨_, -, h⟩ := Except.of_bind_eq_error h
  · exact absurd h Attempt.conforming_ne_error
  · obtain h | ⟨J, -, h⟩ := Except.of_bind_eq_error h
    · obtain ⟨e', he', h⟩ := Attempt.of_ofExcept_eq_error h
      cases h
      exact of_taskJacobian_eq_error he'
    · cases h

/-- The motion of a target that a robot has fails at what the robot answers. -/
theorem of_motion_eq_error {t : Target α} (ht : t.Known m)
    (h : o.motion m s sample t = .error (.error (.model e))) :
    m.Reports s e ∨ m.Misshapes s e := by
  cases t with
  | centerOfMass =>
    obtain h | ⟨kin, hkin, h⟩ := Except.of_bind_eq_error h
    · obtain ⟨e', he', h⟩ := Attempt.of_ofExcept_eq_error h
      cases h
      exact .inl (.centerOfMass he')
    · obtain ⟨what, he⟩ := of_pointMotion_eq_error h
      exact .inr (.centerOfMass (Attempt.of_ofExcept_eq_ok hkin) he)
  | point p =>
    obtain h | ⟨kin, hkin, h⟩ := Except.of_bind_eq_error h
    · obtain ⟨e', he', h⟩ := Attempt.of_ofExcept_eq_error h
      cases h
      exact .inl (.point ht he')
    · obtain ⟨what, he⟩ := of_pointMotion_eq_error h
      exact .inr (.point ht (Attempt.of_ofExcept_eq_ok hkin) he)
  | frame body =>
    obtain h | ⟨kin, hkin, h⟩ := Except.of_bind_eq_error h
    · obtain ⟨e', he', h⟩ := Attempt.of_ofExcept_eq_error h
      cases h
      exact .inl (.frame ht he')
    · cases hq : Quaternion.ofSample? sample.value with
      | none =>
        rw [hq] at h
        cases h
      | some q =>
        rw [hq] at h
        obtain ⟨e', he', h⟩ := Attempt.of_ofExcept_eq_error h
        cases h
        obtain he | ⟨J, -, h⟩ := Except.of_bind_eq_error he'
        · obtain ⟨what, he⟩ := of_taskJacobian_eq_error he
          exact .inr (.frame ht (Attempt.of_ofExcept_eq_ok hkin) he)
        · cases h
  | joint name =>
    obtain ⟨index, hindex⟩ := ht
    rw [motion, hindex] at h
    obtain h | ⟨_, -, h⟩ := Except.of_bind_eq_error h
    · exact absurd h Attempt.conforming_ne_error
    · cases h

theorem of_evaluate_eq_error {phase : PhaseId} {timeInPhase : α}
    {sample : Option (TrajectorySample α)} (ho : ∀ t ∈ o.kind.targets, t.Known m)
    (h : o.evaluate m s phase timeInPhase sample = .error (.error (.model e))) :
    m.Reports s e ∨ m.Misshapes s e := by
  rw [evaluate] at h
  cases htarget : o.activeTarget phase timeInPhase with
  | none =>
    rw [htarget] at h
    cases h
  | some t =>
    rw [htarget] at h
    have hresolve : o.kind.resolve phase = some t := by
      rw [activeTarget] at htarget
      split at htarget
      · exact htarget
      · cases htarget
    obtain h | ⟨sample', -, h⟩ := Except.of_bind_eq_error h
    · obtain ⟨_, -, h⟩ := Attempt.of_ofExcept_eq_error h
      cases h
    · obtain h | ⟨_, -, h⟩ := Except.of_bind_eq_error h
      · obtain ⟨_, -, h⟩ := Attempt.of_ofExcept_eq_error h
        cases h
      · obtain h | ⟨motion, -, h⟩ := Except.of_bind_eq_error h
        · exact of_motion_eq_error (ho t (ObjectiveKind.mem_targets_of_resolve hresolve)) h
        · obtain h | ⟨_, -, h⟩ := Except.of_bind_eq_error h
          · exact absurd h Attempt.conforming_ne_error
          · cases h

end TrackingObjective

omit [Scalar α] in
theorem TickData.of_contactKinematics_eq_error {c : ContactPoint α}
    (hbody : m.hasBody c.point.body = true) (h : contactKinematics m s c = .error e) :
    m.Reports s e ∨ m.Misshapes s e := by
  obtain h | ⟨kin, hkin, h⟩ := Except.of_bind_eq_error h
  · exact .inl (.point hbody h)
  · obtain h | ⟨_, -, h⟩ := Except.of_bind_eq_error h
    · exact .inr (.point hbody hkin h)
    · cases h

omit [Scalar α] in
/-- Gathering fails at what the robot answers. -/
theorem TickData.of_gather_eq_error {contacts : List (ContactPoint α)}
    (hbodies : ∀ c ∈ contacts, m.hasBody c.point.body = true)
    (h : gather m s contacts = .error e) : m.Reports s e ∨ m.Misshapes s e := by
  obtain h | ⟨_, -, h⟩ := Except.of_bind_eq_error h
  · exact .inl (.checkState h)
  obtain h | ⟨M, hM, h⟩ := Except.of_bind_eq_error h
  · exact .inl (.massMatrix h)
  obtain h | ⟨_, -, h⟩ := Except.of_bind_eq_error h
  · exact .inr (.massMatrix hM h)
  obtain h | ⟨c, hc, h⟩ := Except.of_bind_eq_error h
  · exact .inl (.bias h)
  obtain h | ⟨_, -, h⟩ := Except.of_bind_eq_error h
  · exact .inr (.bias hc h)
  obtain h | ⟨_, -, h⟩ := Except.of_bind_eq_error h
  · exact .inr (.actuation h)
  obtain h | ⟨kinematics, -, h⟩ := Except.of_bind_eq_error h
  · obtain ⟨c, hc, he⟩ := Except.of_mapM_eq_error h
    exact of_contactKinematics_eq_error (hbodies c hc) he
  obtain h | ⟨loops, hloops, h⟩ := Except.of_bind_eq_error h
  · exact .inl (.loopConstraints h)
  obtain h | ⟨_, -, h⟩ := Except.of_bind_eq_error h
  · exact .inr (.loopConstraints hloops h)
  · cases h

/-- Building fails at what the robot answers, once its effort limits are in order. -/
theorem Assembler.of_build_eq_error {a : Assembler α} {terms : List (TaskTerm α)}
    {contacts : List (ContactPoint α)} (hbodies : ∀ c ∈ contacts, m.hasBody c.point.body = true)
    (hlimits : ∀ limits ∈ m.effortLimits, limits.size = m.numActuators)
    (h : a.build m s terms contacts = .error (.error e)) : m.Reports s e ∨ m.Misshapes s e := by
  obtain h | ⟨d, hd, h⟩ := Except.of_bind_eq_error h
  · obtain ⟨_, he, rfl⟩ := Attempt.of_ofExcept_eq_error h
    exact TickData.of_gather_eq_error hbodies he
  obtain h | ⟨_, -, h⟩ := Except.of_bind_eq_error h
  · exact absurd h Attempt.conforming_ne_error
  obtain h | ⟨_, -, h⟩ := Except.of_bind_eq_error h
  · exact absurd h Attempt.conforming_ne_error
  obtain h | ⟨_, -, h⟩ := Except.of_bind_eq_error h
  · obtain ⟨_, he, -⟩ := Attempt.of_ofExcept_eq_error h
    obtain ⟨hanswers, hshaped⟩ := TickData.of_gather_eq_ok (Attempt.of_ofExcept_eq_ok hd)
    have heffort : d.checkEffort = .ok () := by
      refine TickData.checkEffort_eq_ok fun limits hl => ?_
      rw [hshaped.numActuators_eq]
      exact hlimits limits (hanswers.effortLimits ▸ hl)
    rw [heffort] at he
    cases he
  · cases h

end Origin

namespace Controller

variable {c : Controller σ α} {inputs : TickInputs α} {e : ModelError}

/-- What the checks at the start leave behind: a robot with all bodies and joints of the objectives
and the contacts, and with an effort limit for each actuator if it has any. -/
structure FitFor (c : Controller σ α) (m : RobotModel α) : Prop where
  targets : ∀ o ∈ c.config.objectives, ∀ t ∈ o.kind.targets, t.Known m
  contacts : ∀ phase, ∀ p ∈ c.config.contacts.active phase, m.hasBody p.point.body = true
  effortLimits : ∀ limits ∈ m.effortLimits, limits.size = m.numActuators

omit [Scalar α] in
theorem known_of_checkObjectives_eq_ok {m : RobotModel α} {seen : List String}
    {os : List (TrackingObjective α)} (h : checkObjectives m seen os = .ok ()) :
    ∀ o ∈ os, ∀ t ∈ o.kind.targets, t.Known m := by
  induction os generalizing seen with
  | nil => exact nofun
  | cons o rest ih =>
    simp only [checkObjectives, Except.guard_bind_eq_ok_iff, Except.seq_eq_ok_iff] at h
    obtain ⟨-, ho, hrest⟩ := h
    refine List.forall_mem_cons.2 ⟨fun t ht => ?_, ih hrest⟩
    exact Target.known_of_validate_eq_ok (Except.forM_eq_ok_iff.1 ho t ht)

theorem size_of_checkActuators_eq_ok {m : RobotModel α} (h : checkActuators m = .ok ()) :
    ∀ limits ∈ m.effortLimits, limits.size = m.numActuators := by
  intro limits hl
  simp only [checkActuators, Except.guard_bind_eq_ok_iff, Option.mem_def.1 hl,
    Except.guard_eq_ok_iff] at h
  exact of_not_not h.2.1

/-- A controller is fit for the robot that it was made for. -/
theorem fitFor_of_create_eq_ok {config : ControllerConfig α} {robot : RobotModel α}
    {solver : Solver σ α} {start : σ} (h : create config robot solver start = .ok c) :
    c.FitFor robot := by
  obtain ⟨-, hactuators, hobjectives, hcontacts, a, -, rfl⟩ := create_eq_ok_iff.1 h
  exact ⟨known_of_checkObjectives_eq_ok hobjectives,
    fun phase p hp => (ContactSet.valid_of_validate_eq_ok hcontacts hp).body,
    size_of_checkActuators_eq_ok hactuators⟩

omit [Scalar α] in
/-- Only lookups and actuators matter. -/
theorem FitFor.congr {m m' : RobotModel α} (h : c.FitFor m) {c' : Controller σ α}
    (hconfig : c'.config = c.config)
    (hbodies : ∀ body, m.hasBody body = true → m'.hasBody body = true)
    (hjoints : m'.jointIndex = m.jointIndex) (hlimits : m'.effortLimits = m.effortLimits)
    (hnu : m'.numActuators = m.numActuators) : c'.FitFor m' := by
  refine ⟨fun o ho t ht => ?_, ?_, ?_⟩
  · have hknown := h.targets o (hconfig ▸ ho) t ht
    cases t with
    | centerOfMass => trivial
    | point p => exact hbodies p.body hknown
    | frame body => exact hbodies body hknown
    | joint name => rwa [Target.Known, hjoints]
  · rw [hconfig]
    exact fun phase p hp => hbodies p.point.body (h.contacts phase p hp)
  · rw [hlimits, hnu]
    exact h.effortLimits

theorem of_activeTerms_eq_error {state : RobotState α} {phase : PhaseId} {timeInPhase : α}
    {samples : String → Option (TrajectorySample α)} {os : List (TrackingObjective α)}
    (hos : ∀ o ∈ os, ∀ t ∈ o.kind.targets, t.Known c.model)
    (h : c.activeTerms state phase timeInPhase samples os = .error (.error (.model e))) :
    c.model.Reports state e ∨ c.model.Misshapes state e := by
  induction os with
  | nil => cases h
  | cons o rest ih =>
    obtain ⟨ho, hrest⟩ := List.forall_mem_cons.1 hos
    obtain h | ⟨term, -, h⟩ := Except.of_bind_eq_error h
    · exact TrackingObjective.of_evaluate_eq_error ho h
    obtain h | ⟨terms, -, h⟩ := Except.of_bind_eq_error h
    · exact ih hrest h
    · cases h

/-- There is no program because of the model: the robot has reported an error, its answer has a
wrong shape, or the program is not finite. -/
theorem FitFor.of_prepare_eq_error (hc : c.FitFor c.model)
    (h : c.prepare inputs = .error (.error (.model e))) :
    ∃ state, inputs.state = some state ∧
      (c.model.Reports state e ∨ c.model.Misshapes state e ∨ e = .nonFiniteProgram) := by
  obtain h | ⟨⟨state, phase⟩, hinputs, h⟩ := Except.of_bind_eq_error h
  · obtain ⟨_, -, h⟩ := Attempt.of_ofExcept_eq_error h
    cases h
  refine ⟨state, (of_readInputs_eq_ok (Attempt.of_ofExcept_eq_ok hinputs)).1, ?_⟩
  rw [← or_assoc]
  obtain h | ⟨_, -, h⟩ := Except.of_bind_eq_error h
  · obtain ⟨_, he, h⟩ := Attempt.of_ofExcept_eq_error h
    cases h
    exact .inl (.inl (.checkState he))
  obtain h | ⟨terms, -, h⟩ := Except.of_bind_eq_error h
  · exact .inl (of_activeTerms_eq_error hc.targets h)
  obtain h | ⟨program, -, h⟩ := Except.of_bind_eq_error h
  · obtain ⟨_, he, h⟩ := Attempt.of_mapError_eq_error h
    cases h
    exact .inl (Assembler.of_build_eq_error (hc.contacts phase.id) hc.effortLimits he)
  by_cases hfinite : program.allFinite = false
  · rw [if_pos hfinite] at h
    cases h
    exact .inr rfl
  · rw [if_neg hfinite] at h
    cases h

/-- Reading an answer blames nothing but the solver. -/
theorem Prepared.of_read_eq_error {p : Prepared α} {answer : Except SolverError (Vec α)}
    {fault : TickError} (h : p.read answer = .error (.error fault)) : ∃ e, fault = .solver e := by
  obtain h | ⟨x, -, h⟩ := Except.of_bind_eq_error h
  · obtain ⟨e, -, rfl⟩ := Attempt.of_ofExcept_eq_error h
    exact ⟨e, rfl⟩
  obtain h | ⟨_, -, h⟩ := Except.of_bind_eq_error h
  · obtain ⟨e, -, rfl⟩ := Attempt.of_ofExcept_eq_error h
    exact ⟨e, rfl⟩
  obtain h | ⟨_, -, h⟩ := Except.of_bind_eq_error h
  · exact absurd h Attempt.conforming_ne_error
  · cases h

/-- A solve blames something other than the solver only where there is no program. -/
theorem result_solve_eq_error_iff {fault : TickError} (hfault : ∀ e, fault ≠ .solver e) :
    (c.solve inputs).result = .error (.error fault) ↔
      c.prepare inputs = .error (.error fault) := by
  obtain ⟨e', hprepare, hsolve⟩ | ⟨p, hprepare, ⟨e', hread, hsolve⟩ | ⟨solution, -, hsolve⟩⟩ :=
    c.solve_cases inputs
  · rw [hsolve, hprepare]
    simp
  · rw [hsolve, hprepare]
    refine ⟨fun h => ?_, nofun⟩
    cases h
    obtain ⟨e, he⟩ := Prepared.of_read_eq_error hread
    exact absurd he (hfault e)
  · rw [hsolve, hprepare]
    exact ⟨nofun, nofun⟩

/-! ### Runs -/

/-- A controller stays fit for a robot that keeps its bodies, joints, actuators and effort
limits. -/
theorem FitFor.after {robot : RobotModel α} (h : c.FitFor robot) (turns : List (Turn α))
    {m : RobotModel α} (hbodies : ∀ body, robot.hasBody body = true → m.hasBody body = true)
    (hjoints : m.jointIndex = robot.jointIndex) (hlimits : m.effortLimits = robot.effortLimits)
    (hnu : m.numActuators = robot.numActuators) :
    ({ c.after turns with model := m }).FitFor m :=
  h.congr (c.madeAlike_after turns).config hbodies hjoints hlimits hnu

end Controller

def Call.inputs : Call α → TickInputs α
  | tick inputs | solve inputs | problem inputs => inputs

/-- The error of the model that a solve or a program is refused for. -/
def Reply.modelError? : Reply α → Option ModelError
  | .solution (.error (.error (.model e))) | .program (.error (.error (.model e))) => some e
  | _ => none

omit [Scalar α] in
theorem Reply.of_modelError?_eq_some {r : Reply α} {e : ModelError}
    (h : r.modelError? = some e) : r = .solution (.error (.error (.model e))) ∨
      r = .program (.error (.error (.model e))) := by
  unfold modelError? at h
  split at h
  · cases h
    exact .inl rfl
  · cases h
    exact .inr rfl
  · cases h

/-- A reply blames the model where there is no program. -/
theorem Controller.prepare_of_modelError {c : Controller σ α} {t : Turn α} {e : ModelError}
    (h : (c.turn t).result.modelError? = some e) :
    ({ c with model := t.robot }).prepare t.call.inputs = .error (.error (.model e)) := by
  have hreply := Reply.of_modelError?_eq_some h
  rw [turn] at hreply
  cases hcall : t.call with
  | tick inputs => simp [hcall] at hreply
  | solve inputs =>
    simp only [hcall, Reply.solution.injEq, reduceCtorEq, or_false] at hreply
    have hfault (e' : SolverError) : TickError.model e ≠ .solver e' := by simp
    exact (result_solve_eq_error_iff hfault).1 hreply
  | problem inputs =>
    simp only [hcall, Reply.program.injEq, reduceCtorEq, false_or] at hreply
    obtain hreply | ⟨p, -, hreply⟩ := Except.of_bind_eq_error hreply
    · exact hreply
    · cases hreply

/-- A program is refused for the error that its building ends with. -/
theorem Controller.modelError_of_build {c : Controller σ α} {m : RobotModel α}
    {inputs : TickInputs α} {state : RobotState α} {phase : GaitPhase α}
    {terms : List (TaskTerm α)} {e : ModelError}
    (hinputs : readInputs inputs = .ok (state, phase)) (hcheck : m.checkState state = .ok ())
    (hterms : ({ c with model := m }).activeTerms state phase.id (phase.timeInPhase inputs.time)
      inputs.samples c.config.objectives = .ok terms)
    (hbuild : c.assembler.build m state terms (c.config.contacts.active phase.id) =
      .error (.error e)) : (c.turn ⟨m, .problem inputs⟩).result.modelError? = some e := by
  have hproblem : ({ c with model := m }).problem inputs = .error (.error (.model e)) := by
    refine Except.bind_of_eq_error ?_
    rw [prepare, Except.bind_of_eq_ok (Attempt.ofExcept_eq_ok hinputs)]
    dsimp only
    rw [Except.bind_of_eq_ok (Attempt.ofExcept_eq_ok hcheck), Except.bind_of_eq_ok hterms, hbuild]
    rfl
  simp only [turn, hproblem, Reply.modelError?]

/-- The errors of the model that a solve or a program can be refused for in any run, as long as the
robot keeps the bodies, joints, actuators and effort limits that it had at the start. They are errors
that the robot reports, answers with the wrong shape and programs that are not finite; a body, a
joint or an effort limit is missing only where the robot itself reports so. For a point mass there is
nothing but the dimensions of a state and programs that are not finite, and for a floating body
besides those the shape of the loops that it was given. -/
theorem model_errors_of_run {config : ControllerConfig α} {robot : RobotModel α}
    {solver : Solver σ α} {start : σ} {c : Controller σ α}
    (hcreate : Controller.create config robot solver start = .ok c) (turns : List (Turn α))
    (t : Turn α) (hbodies : ∀ body, robot.hasBody body = true → t.robot.hasBody body = true)
    (hjoints : t.robot.jointIndex = robot.jointIndex)
    (hlimits : t.robot.effortLimits = robot.effortLimits)
    (hnu : t.robot.numActuators = robot.numActuators) {e : ModelError}
    (he : ((c.after turns).turn t).result.modelError? = some e) :
    ∃ state, t.call.inputs.state = some state ∧
      (t.robot.Reports state e ∨ t.robot.Misshapes state e ∨ e = .nonFiniteProgram) ∧
      (e.IsLookup → t.robot.Reports state e) ∧
      (∀ r : PointMass α, t.robot = r.model →
        e = .stateDimension 3 3 state.q.size state.v.size ∨ e = .nonFiniteProgram) ∧
      ∀ r : FloatingBody α, t.robot = r.model →
        e = .stateDimension r.numPositions r.numVelocities state.q.size state.v.size ∨
        e = .nonFiniteProgram ∨ ∃ l ∈ r.loops,
          l.jacobian.cols ≠ r.numVelocities ∧
            e = .jacobianColumns "loop constraint jacobian" r.numVelocities l.jacobian.cols ∨
          l.jdotV.size ≠ l.jacobian.rows ∧
            e = .shape "loop constraint bias" l.jacobian.rows 1 l.jdotV.size 1 := by
  have hfit := (Controller.fitFor_of_create_eq_ok hcreate).after turns hbodies hjoints hlimits hnu
  obtain ⟨state, hstate, horigin⟩ :=
    hfit.of_prepare_eq_error (Controller.prepare_of_modelError he)
  refine ⟨state, hstate, horigin, fun hlookup => ?_, fun r hr => ?_, fun r hr => ?_⟩
  · obtain he | he | rfl := horigin
    · exact he
    · exact absurd hlookup he.not_isLookup
    · exact hlookup.elim
  · rw [hr] at horigin
    obtain he | he | he := horigin
    · exact .inl (r.serves.eq_of_reports he)
    · cases r.serves.checkLoops_of_misshapes he
    · exact .inr he
  · rw [hr] at horigin
    obtain he | he | he := horigin
    · exact .inl (r.serves.eq_of_reports he)
    · exact .inr (.inr (of_checkLoops_eq_error (r.serves.checkLoops_of_misshapes he)))
    · exact .inr (.inl he)

/-- A point mass on one foot whose estimator has lost a coordinate, then one whose mass matrix has
lost a row, and last one whose bias asks for a joint that is not there. -/
theorem model_errors_of_run_oneFoot :
    let r : PointMass Float := ⟨"mass", 1, 10⟩
    let misshapen : RobotModel Float := { r.model with massMatrix := fun _ => .ok (.zeros 2 3) }
    let searching : RobotModel Float :=
      { r.model with bias := fun _ => .error (.unknownJoint "rotor") }
    let foot : ContactPoint Float := ⟨"foot", ⟨"mass", 0⟩, .unitZ, none, none⟩
    let config : ControllerConfig Float :=
      ⟨.standard, [], ContactSet.empty.insert .doubleStance foot⟩
    let solver : Solver Unit Float := ⟨true, fun _ _ _ => (.error .nonFinite, ())⟩
    let still : RobotState Float := ⟨.zeros 3, .zeros 3⟩
    let lost : RobotState Float := ⟨.zeros 2, .zeros 3⟩
    let inputs (s : RobotState Float) : TickInputs Float :=
      ⟨0, some s, some ⟨.doubleStance, 0⟩, fun _ => none⟩
    ∃ c, Controller.create config r.model solver () = .ok c ∧
      (∃ e, ((c.after []).turn ⟨r.model, .problem (inputs lost)⟩).result.modelError? = some e ∧
        (e = .stateDimension 3 3 2 3 ∨ e = .nonFiniteProgram)) ∧
      (∃ e, ((c.after []).turn ⟨misshapen, .problem (inputs still)⟩).result.modelError? = some e ∧
        ¬ e.IsLookup) ∧
      ∃ e, ((c.after []).turn ⟨searching, .problem (inputs still)⟩).result.modelError? = some e ∧
        e.IsLookup ∧ searching.Reports still e := by
  intro r misshapen searching foot config solver still lost inputs
  obtain ⟨c, hc⟩ : ∃ c, Controller.create config r.model solver () = .ok c :=
    Except.exists_of_isOk (by decide +kernel)
  have hread {s : RobotState Float} (hs : s.allFinite = true) :
      Controller.readInputs (inputs s) = .ok (s, ⟨.doubleStance, 0⟩) := by
    have hzero : Scalar.isFinite (0 : Float) = true := by decide
    exact Controller.readInputs_eq_ok rfl rfl hzero hzero hs
  have hstill := hread (s := still) (by decide +kernel)
  have hlost := hread (s := lost) (by decide +kernel)
  obtain ⟨-, -, -, -, a, -, rfl⟩ := Controller.create_eq_ok_iff.1 hc
  let c : Controller Unit Float := ⟨config, r.model, solver, (), a, none, none, .initial⟩
  refine ⟨c, hc, ?_, ?_, ?_⟩
  · have he : (c.turn ⟨r.model, .problem (inputs lost)⟩).result.modelError? =
        some (.stateDimension 3 3 2 3) := by
      simp only [Controller.turn, Controller.problem, Controller.prepare, hlost]
      rfl
    obtain ⟨_, hstate, -, -, hpointMass, -⟩ :=
      model_errors_of_run hc [] ⟨r.model, .problem (inputs lost)⟩ (fun _ => id) rfl rfl rfl he
    cases hstate
    exact ⟨_, he, hpointMass r rfl⟩
  · have he : (c.turn ⟨misshapen, .problem (inputs still)⟩).result.modelError? =
        some (.shape "mass matrix" 3 3 2 3) :=
      Controller.modelError_of_build hstill rfl rfl rfl
    obtain ⟨_, hstate, -, hlookup, -⟩ :=
      model_errors_of_run hc [] ⟨misshapen, .problem (inputs still)⟩ (fun _ => id) rfl rfl rfl he
    cases hstate
    have hreports {e : ModelError} (h : misshapen.Reports still e) : ¬ e.IsLookup := by
      have hmass : r.model.Reports still e := by
        cases h with
        | checkState h => exact .checkState h
        | massMatrix h => cases h
        | bias h => exact .bias h
        | centerOfMass h => exact .centerOfMass h
        | point hbody h => exact .point hbody h
        | frame hbody h => exact .frame hbody h
        | loopConstraints h => exact .loopConstraints h
      rw [r.serves.eq_of_reports hmass]
      exact id
    exact ⟨_, he, fun h => hreports (hlookup h) h⟩
  · have he : (c.turn ⟨searching, .problem (inputs still)⟩).result.modelError? =
        some (.unknownJoint "rotor") :=
      Controller.modelError_of_build hstill rfl rfl rfl
    obtain ⟨_, hstate, -, hlookup, -⟩ :=
      model_errors_of_run hc [] ⟨searching, .problem (inputs still)⟩ (fun _ => id) rfl rfl rfl he
    cases hstate
    exact ⟨_, he, trivial, hlookup trivial⟩

/-- A robot can be refused for a lookup although its points and frames miss only bodies that it does
not have, and its joints and effort limits stay: when its mass matrix asks for a body that is not
there, when it has lost the body of its foot, and when it has lost an actuator. Nor is every joint
that is accepted of use: with the velocity of a joint at a place that the robot does not have, there
are sizes that do not fit together. -/
theorem not_every_lookup_settled_at_start :
    let mass : RobotModel Float := (⟨"mass", 1, 10⟩ : PointMass Float).model
    let robot : RobotModel Float := { mass with
      numActuators := 3
      actuation := .identity 3
      effortLimits := some (.replicate 3 50) }
    let searching : RobotModel Float :=
      { robot with massMatrix := fun _ => .error (.unknownBody "rotor") }
    let broken : RobotModel Float := { robot with
      hasBody := fun _ => false
      point := fun _ p => .error (.unknownBody p.body)
      frame := fun _ body => .error (.unknownBody body) }
    let weaker : RobotModel Float := { robot with numActuators := 2, actuation := .zeros 3 2 }
    let loose : RobotModel Float := { robot with jointIndex := fun _ => some ⟨0, 5⟩ }
    let foot : ContactPoint Float := ⟨"foot", ⟨"mass", 0⟩, .unitZ, none, none⟩
    let lift : TrackingObjective Float :=
      ⟨"lift", .jointSpace (.always "lift"), .uniform 1 1 1, .identity 1, .empty, none, .trajectory⟩
    let standing : ControllerConfig Float :=
      ⟨.standard, [], ContactSet.empty.insert .doubleStance foot⟩
    let lifting : ControllerConfig Float := ⟨.standard, [lift], .empty⟩
    let solver : Solver Unit Float := ⟨true, fun _ _ _ => (.error .nonFinite, ())⟩
    let still : RobotState Float := ⟨.zeros 3, .zeros 3⟩
    let sample : TrajectorySample Float := ⟨.zeros 1, .zeros 1, .zeros 1⟩
    let inputs : TickInputs Float :=
      ⟨0, some still, some ⟨.doubleStance, 0⟩, fun _ => some sample⟩
    (∃ c, Controller.create standing robot solver () = .ok c ∧
      (searching.LooksUpAs robot ∧ (c.turn ⟨searching, .problem inputs⟩).result.modelError? =
        some (.unknownBody "rotor")) ∧
      (broken.LooksUpAs robot ∧ (c.turn ⟨broken, .problem inputs⟩).result.modelError? =
        some (.unknownBody "mass")) ∧
      (weaker.LooksUpAs robot ∧ (c.turn ⟨weaker, .problem inputs⟩).result.modelError? =
        some (.effortLimits 2 3))) ∧
    ∃ c, Controller.create lifting loose solver () = .ok c ∧ loose.LooksUpAs loose ∧
      (c.turn ⟨loose, .problem inputs⟩).result = .program (.error .nonconforming) := by
  intro mass robot searching broken weaker loose foot lift standing lifting solver still sample
    inputs
  have hmass : mass.LooksUpAs mass := (PointMass.serves _).looksUpAs
  have hinputs : Controller.readInputs inputs = .ok (still, ⟨.doubleStance, 0⟩) := by
    have hzero : Scalar.isFinite (0 : Float) = true := by decide
    exact Controller.readInputs_eq_ok rfl rfl hzero hzero (by decide +kernel)
  constructor
  · obtain ⟨c, hc⟩ : ∃ c, Controller.create standing robot solver () = .ok c :=
      Except.exists_of_isOk (by decide +kernel)
    obtain ⟨-, -, -, -, a, ha, rfl⟩ := Controller.create_eq_ok_iff.1 hc
    -- Effort limits are checked behind the joint costs, of which there are none.
    cases ha
    refine ⟨_, hc, ⟨⟨hmass.point, hmass.frame, rfl, rfl⟩, ?_⟩, ⟨⟨?_, ?_, rfl, rfl⟩, ?_⟩,
      ⟨⟨hmass.point, hmass.frame, rfl, rfl⟩, ?_⟩⟩
    · exact Controller.modelError_of_build hinputs rfl rfl rfl
    · exact fun _ _ _ _ => rfl
    · exact fun _ _ _ _ => rfl
    · exact Controller.modelError_of_build hinputs rfl rfl rfl
    · exact Controller.modelError_of_build hinputs rfl rfl rfl
  · obtain ⟨c, hc⟩ : ∃ c, Controller.create lifting loose solver () = .ok c :=
      Except.exists_of_isOk (by decide +kernel)
    obtain ⟨-, -, -, -, a, -, rfl⟩ := Controller.create_eq_ok_iff.1 hc
    refine ⟨_, hc, ⟨hmass.point, hmass.frame, rfl, rfl⟩, ?_⟩
    simp only [Controller.turn, Controller.problem, Controller.prepare, hinputs]
    rfl

end WholeBody
