import WholeBody.Robot.Model
import WholeBody.Tracking.Gains
import WholeBody.Tracking.Sample
import WholeBody.Tracking.Term

/-!
# Tracking objectives

An objective tracks the center of mass, a point, a frame or a joint, as its binding says for the
gait phase. It commands the task acceleration
`ÿ = ÿ_des + K_d (ẏ_des - ẏ) + K_p (y_des - y)`
and turns it into a term of the cost.

Gains and weights are checked once, when the objective is made. A zero weight is allowed and makes
the objective inert.
-/

namespace WholeBody

/-- The quantity that an objective tracks, and what it is bound to in each phase. -/
inductive ObjectiveKind (α : Type) where
  | centerOfMass (binding : PhaseBinding Unit)
  | translationalPoint (binding : PhaseBinding (BodyPoint α))
  | rotationalFrame (binding : PhaseBinding String)
  | jointSpace (binding : PhaseBinding String)

/-- What is tracked in one tick. -/
inductive Target (α : Type) where
  | centerOfMass
  | point (p : BodyPoint α)
  | frame (body : String)
  | joint (name : String)

namespace ObjectiveKind

variable {α : Type}

/-- Dimension of the task velocity. -/
def dim : ObjectiveKind α → Nat
  | jointSpace _ => 1
  | _ => 3

def isOrientation : ObjectiveKind α → Bool
  | rotationalFrame _ => true
  | _ => false

/-- Length of a desired value. -/
def valueDim (k : ObjectiveKind α) : Nat := if k.isOrientation then 4 else k.dim

/-- The target in a phase, if there is one. -/
def resolve : ObjectiveKind α → PhaseId → Option (Target α)
  | centerOfMass b, p => (b.resolve p).map fun _ => .centerOfMass
  | translationalPoint b, p => (b.resolve p).map .point
  | rotationalFrame b, p => (b.resolve p).map .frame
  | jointSpace b, p => (b.resolve p).map .joint

/-- Every target, in phase order. -/
def targets : ObjectiveKind α → List (Target α)
  | centerOfMass b => b.targets.map fun _ => .centerOfMass
  | translationalPoint b => b.targets.map .point
  | rotationalFrame b => b.targets.map .frame
  | jointSpace b => b.targets.map .joint

end ObjectiveKind

/-- Checks that a robot has the body or the joint of a target. -/
def Target.validate {α : Type} (model : RobotModel α) :
    Target α → Except (ConfigError α) Unit
  | centerOfMass => .ok ()
  | point p => if model.hasBody p.body then .ok () else .error (.unknownBody p.body)
  | frame body => if model.hasBody body then .ok () else .error (.unknownBody body)
  | joint name =>
    match model.jointIndex name with
    | some _ => .ok ()
    | none => .error (.unknownJoint name)

/-- Where the desired trajectory comes from. -/
inductive DesiredSource (α : Type) where
  /-- A sample under the name of the objective comes with every tick. -/
  | trajectory
  /-- A fixed target. -/
  | constant (sample : TrajectorySample α)

/-- One unit of task tracking. -/
structure TrackingObjective (α : Type) where
  name : String
  kind : ObjectiveKind α
  gains : FeedbackGains α
  weight : Mat α
  phaseScales : SortedMap PhaseId α
  window : Option (ActiveWindow α)
  source : DesiredSource α

namespace TrackingObjective

variable {α : Type} [Scalar α]

/-- Makes an objective that follows a trajectory, after a check of its gains and its weight. -/
def create [Spectrum α] (name : String) (kind : ObjectiveKind α) (gains : FeedbackGains α)
    (weight : Mat α) : Attempt (ConfigError α) (TrackingObjective α) := do
  gains.validate name kind.dim
  FeedbackGains.validateMatrix name .weight weight kind.dim
  return {
    name, kind, gains, weight
    phaseScales := .empty
    window := none
    source := .trajectory }

def dim (o : TrackingObjective α) : Nat := o.kind.dim

/-- Checks a desired trajectory against the kind of the objective. -/
def checkSample (o : TrackingObjective α) (s : TrajectorySample α) : Except InputError Unit :=
  s.check o.name o.kind.valueDim o.kind.dim o.kind.isOrientation

/-- The fault of a configuration whose constant target has the given fault. -/
def constantFault (name : String) : InputError → ConfigError α
  | .sampleDimension _ field expected got =>
    .dimensionMismatch s!"constant target {field.name} of objective '{name}'" expected got
  | e => .invalidValue s!"constant target of objective '{name}'" (.input e)

/-- Tracks a fixed target. -/
def withConstantTarget (o : TrackingObjective α) (s : TrajectorySample α) :
    Except (ConfigError α) (TrackingObjective α) :=
  match o.checkSample s with
  | .ok () => .ok { o with source := .constant s }
  | .error e => .error (constantFault o.name e)

/-- Tracks only while the time in the phase is in the window. -/
def withWindow (o : TrackingObjective α) (start stop : α) :
    Except (ConfigError α) (TrackingObjective α) :=
  if Scalar.isFinite start = false ∨ Scalar.isFinite stop = false ∨ stop < start then
    .error (.invalidValue s!"window of objective '{o.name}'" (.notInterval start stop))
  else .ok { o with window := some ⟨start, stop⟩ }

/-- Scales the weight in one phase. -/
def withPhaseScale (o : TrackingObjective α) (phase : PhaseId) (scale : α) :
    Except (ConfigError α) (TrackingObjective α) :=
  if Scalar.isFinite scale = false ∨ scale < 0 then
    .error (.invalidValue s!"phase scale of objective '{o.name}'" (.phaseScale scale))
  else .ok { o with phaseScales := o.phaseScales.insert phase scale }

/-- The weight in a phase. -/
def effectiveWeight (o : TrackingObjective α) (phase : PhaseId) : Mat α :=
  match o.phaseScales.get? phase with
  | some scale => scale • o.weight
  | none => o.weight

/-- Whether the time in the phase is in the window of the objective. -/
def InWindow (o : TrackingObjective α) (timeInPhase : α) : Prop :=
  match o.window with
  | some w => w.Contains timeInPhase
  | none => True

instance (o : TrackingObjective α) (t : α) : Decidable (o.InWindow t) := by
  unfold InWindow
  cases o.window <;> infer_instance

/-- What the objective tracks now, if anything. -/
def activeTarget (o : TrackingObjective α) (phase : PhaseId) (timeInPhase : α) :
    Option (Target α) :=
  if o.InWindow timeInPhase then o.kind.resolve phase else none

/-- Checks that a robot has every body and joint that the objective may be bound to. -/
def validateAgainst (o : TrackingObjective α) (model : RobotModel α) :
    Except (ConfigError α) Unit :=
  o.kind.targets.forM (Target.validate model)

/-- The desired trajectory of one tick. -/
def desired (o : TrackingObjective α) (sample : Option (TrajectorySample α)) :
    Except InputError (TrajectorySample α) :=
  match o.source with
  | .constant s => .ok s
  | .trajectory =>
    match sample with
    | some s => .ok s
    | none => .error (.missingSample o.name)

/-- The motion of a target: its Jacobian, the vector `J̇ v` and its distance from the desired
value. -/
structure TaskMotion (α : Type) where
  jacobian : Mat α
  jdotV : Vec α
  error : Vec α

/-- The Jacobian of a point or a frame as a matrix with one column for each velocity. -/
def taskJacobian (o : TrackingObjective α) (jacobian : Jacobian3 α) (nv : Nat) :
    Except ModelError (Mat α) :=
  if jacobian.length = nv then .ok jacobian.toMat
  else .error (.jacobianColumns s!"jacobian of objective '{o.name}'" nv jacobian.length)

/-- The motion of a point that should be at the value of a sample. -/
def pointMotion (o : TrackingObjective α) (nv : Nat) (s : TrajectorySample α)
    (kin : PointKinematics α) : Attempt TickError (TaskMotion α) := do
  Attempt.conforming (3 ≤ s.value.size)
  let jacobian ← .ofExcept .model (o.taskJacobian kin.jacobian nv)
  return ⟨jacobian, kin.jdotV.toVec, (Vec3.ofVec s.value 0 - kin.position).toVec⟩

/-- The motion of a frame that should have the orientation `desired`. -/
def frameMotion (o : TrackingObjective α) (nv : Nat) (desired : Quaternion α)
    (kin : FrameKinematics α) : Except ModelError (TaskMotion α) := do
  let jacobian ← o.taskJacobian kin.jacobian nv
  return ⟨jacobian, kin.jdotV.toVec, (orientationError desired kin.orientation).toVec⟩

/-- The motion of a joint: its Jacobian is one at its velocity and zero elsewhere. -/
def jointMotion (nv : Nat) (s : TrajectorySample α) (state : RobotState α) (index : JointIndex) :
    TaskMotion α :=
  ⟨.ofFn 1 nv fun _ j => if j = index.velocity then 1 else 0, .zeros 1,
    .ofList [s.value.entry 0 - state.q.entry index.position]⟩

/-- The motion of a target in a state. -/
def motion (o : TrackingObjective α) (model : RobotModel α) (state : RobotState α)
    (s : TrajectorySample α) : Target α → Attempt TickError (TaskMotion α)
  | .centerOfMass => do
    let kin ← .ofExcept .model (model.centerOfMass state)
    o.pointMotion model.numVelocities s kin
  | .point p => do
    let kin ← .ofExcept .model (model.point state p)
    o.pointMotion model.numVelocities s kin
  | .frame body => do
    let kin ← .ofExcept .model (model.frame state body)
    match Quaternion.ofSample? s.value with
    | some q => .ofExcept .model (o.frameMotion model.numVelocities q kin)
    | none => Attempt.fail (.input (.nonFinite .orientation))
  | .joint name =>
    match model.jointIndex name with
    | some index => do
      Attempt.conforming (index.velocity < model.numVelocities ∧ 0 < s.value.size ∧
        index.position < state.q.size)
      return jointMotion model.numVelocities s state index
    | none => Attempt.fail (.model (.unknownJoint name))

/-- Whether the sizes of a state, a sample and a motion fit together and fit the gains. -/
def CommandFits (o : TrackingObjective α) (state : RobotState α) (s : TrajectorySample α)
    (m : TaskMotion α) : Prop :=
  m.jacobian.cols = state.v.size ∧ s.dot.size = m.jacobian.rows ∧
    o.gains.kd.cols = s.dot.size ∧ o.gains.kd.rows = s.ddot.size ∧
    o.gains.kp.cols = m.error.size ∧ o.gains.kp.rows = s.ddot.size

instance (o : TrackingObjective α) (state : RobotState α) (s : TrajectorySample α)
    (m : TaskMotion α) : Decidable (o.CommandFits state s m) :=
  inferInstanceAs (Decidable (_ ∧ _ ∧ _ ∧ _ ∧ _ ∧ _))

/-- The commanded task acceleration. -/
def command (o : TrackingObjective α) (s : TrajectorySample α) (velocity error : Vec α) : Vec α :=
  s.ddot + o.gains.kd.mulVec (s.dot - velocity) + o.gains.kp.mulVec error

/-- The term of a motion. -/
def term (o : TrackingObjective α) (phase : PhaseId) (state : RobotState α)
    (s : TrajectorySample α) (m : TaskMotion α) : TaskTerm α where
  name := o.name
  jacobian := m.jacobian
  jdotV := m.jdotV
  ddyCmd := o.command s (m.jacobian.mulVec state.v) m.error
  weight := o.effectiveWeight phase
  error := m.error

/-- The term of the objective in one tick, none when it is not active. The sample is looked at only
by an active objective that follows a trajectory. -/
def evaluate (o : TrackingObjective α) (model : RobotModel α) (state : RobotState α)
    (phase : PhaseId) (timeInPhase : α) (sample : Option (TrajectorySample α)) :
    Attempt TickError (Option (TaskTerm α)) :=
  match o.activeTarget phase timeInPhase with
  | none => .ok none
  | some target => do
    let s ← .ofExcept .input (o.desired sample)
    .ofExcept .input (o.checkSample s)
    let m ← o.motion model state s target
    Attempt.conforming (o.CommandFits state s m)
    return some (o.term phase state s m)

end TrackingObjective

end WholeBody
