import WholeBody.Robot.Model

/-!
# A floating rigid body

A rigid body with its center of mass at the origin of its frame, which may carry rotor joints. The
rotors are decoupled from the base: each adds one diagonal entry to the mass matrix.

The positions are `[p, w, x, y, z, joint angles]` with a quaternion for the orientation, and the
velocities are `[ṗ, ω, joint rates]` with the angular velocity `ω` in world frame.
-/

namespace WholeBody

/-- A rotor joint. -/
structure RotorJoint (α : Type) where
  name : String
  inertia : α

/-- A floating body with its joints and actuators. -/
structure FloatingBody (α : Type) where
  body : String
  mass : α
  /-- Inertia about the center of mass, in body frame. -/
  inertia : Mat3 α
  gravity : α
  /-- Whether the base has actuators for all six directions of force and torque. -/
  baseActuated : Bool
  joints : List (RotorJoint α)
  effortLimit : Option α
  /-- Constant loop-closure rows over the velocities. -/
  loops : Option (LoopConstraints α)

namespace FloatingBody

variable {α : Type} [Scalar α]

/-- Inertia of a homogeneous box with the given edges. -/
def cuboidInertia (mass : α) (edges : Vec3 α) : Mat3 α :=
  let a := edges.x
  let b := edges.y
  let c := edges.z
  let share := mass / ((12 : Nat) : α)
  .diagonal ⟨share * (b * b + c * c), share * (a * a + c * c), share * (a * a + b * b)⟩

def numPositions (r : FloatingBody α) : Nat := 7 + r.joints.length

def numVelocities (r : FloatingBody α) : Nat := 6 + r.joints.length

/-- Number of actuators of the base. -/
def baseActuators (r : FloatingBody α) : Nat := if r.baseActuated then 6 else 0

def numActuators (r : FloatingBody α) : Nat := r.baseActuators + r.joints.length

/-- The base actuators act on the base velocities, and each joint actuator on its joint. -/
def actuation (r : FloatingBody α) : Mat α :=
  .ofFn r.numVelocities r.numActuators fun i j =>
    if (i < 6 ∧ j = i ∧ j < r.baseActuators) ∨ (6 ≤ i ∧ j = r.baseActuators + (i - 6)) then 1
    else 0

/-- The orientation of a state, its quaternion normalized. -/
def orientation (s : RobotState α) : Quaternion α := (Quaternion.ofVec s.q 3).normalize

def position (s : RobotState α) : Vec3 α := .ofVec s.q 0

/-- Angular velocity in world frame. -/
def angularVelocity (s : RobotState α) : Vec3 α := .ofVec s.v 3

/-- Inertia in world frame. -/
def worldInertia (r : FloatingBody α) (s : RobotState α) : Mat3 α :=
  let rotation := (orientation s).toMat3
  rotation * r.inertia * rotation.transpose

def check (r : FloatingBody α) (s : RobotState α) : Except ModelError Unit :=
  checkDimensions r.numPositions r.numVelocities s

def checkBody (r : FloatingBody α) (body : String) : Except ModelError Unit :=
  if body = r.body then .ok () else .error (.unknownBody body)

/-- Index of the first joint with a name. -/
def jointIndex (r : FloatingBody α) (joint : String) : Option JointIndex :=
  (r.joints.findIdx? (·.name = joint)).map fun k => ⟨7 + k, 6 + k⟩

def massMatrix (r : FloatingBody α) (s : RobotState α) : Mat α :=
  let rotors := Mat.diagonal r.numVelocities fun i =>
    if 6 ≤ i then ((r.joints.map (·.inertia))[i - 6]?).getD 0 else 0
  (rotors.setBlock 0 0 (.scalarMatrix 3 r.mass)).setBlock 3 3 (r.worldInertia s).toMat

/-- The weight of the mass and the gyroscopic torque `ω × I ω`. -/
def bias (r : FloatingBody α) (s : RobotState α) : Vec α :=
  let ω := angularVelocity s
  let torque := ω.cross ((r.worldInertia s).mulVec ω)
  .ofFn r.numVelocities fun i =>
    if i = 2 then r.mass * r.gravity else if 3 ≤ i then torque.component (i - 3) else 0

/-- Kinematics of a point at `offset` from the origin of the body: `ṗ = v + ω × R offset`. -/
def pointKinematics (r : FloatingBody α) (s : RobotState α) (offset : Vec3 α) :
    PointKinematics α :=
  let arm := (orientation s).rotate offset
  let ω := angularVelocity s
  { position := position s + arm
    jacobian := .ofBlocks r.numVelocities .identity (-Mat3.skew arm)
    jdotV := ω.cross (ω.cross arm) }

def model (r : FloatingBody α) : RobotModel α where
  numPositions := r.numPositions
  numVelocities := r.numVelocities
  numActuators := r.numActuators
  actuation := r.actuation
  effortLimits := r.effortLimit.map (Vec.replicate r.numActuators)
  hasBody b := b = r.body
  jointIndex := r.jointIndex
  checkState := r.check
  massMatrix s := do
    r.check s
    return r.massMatrix s
  bias s := do
    r.check s
    return r.bias s
  centerOfMass s := do
    r.check s
    return {
      position := position s
      jacobian := .ofBlocks r.numVelocities .identity .zero
      jdotV := 0 }
  point s p := do
    r.checkBody p.body
    r.check s
    return r.pointKinematics s p.offset
  frame s b := do
    r.checkBody b
    r.check s
    return {
      orientation := orientation s
      jacobian := .ofBlocks r.numVelocities .zero .identity
      jdotV := 0 }
  loopConstraints s := do
    r.check s
    return r.loops

/-- The state at rest with the given position and orientation of the base. -/
def restState (r : FloatingBody α) (position : Vec3 α) (orientation : Quaternion α) :
    RobotState α where
  q := position.toVec ++ orientation.toVec ++ Vec.zeros r.joints.length
  v := .zeros r.numVelocities

/-- One semi-implicit Euler step: the new velocity moves the positions, and the orientation follows
the exponential of the angular velocity. There is none when the sizes do not fit together. -/
def integrate (r : FloatingBody α) (s : RobotState α) (vdot : Vec α) (dt : α) :
    Option (RobotState α) :=
  if s.v.size = vdot.size ∧ r.numVelocities ≤ s.v.size ∧ r.numPositions ≤ s.q.size then
    let v := s.v + dt • vdot
    let next : RobotState α := { q := s.q, v }
    let p := position s + dt • Vec3.ofVec v 0
    let orientation := Quaternion.exp (dt • angularVelocity next) * orientation s
    let base := p.toVec ++ orientation.toVec
    let q := Vec.ofFn s.q.size fun i =>
      if i < 7 then base.entry i
      else if i < r.numPositions then s.q.entry i + v.entry (i - 1) * dt
      else s.q.entry i
    some { q, v }
  else none

end FloatingBody

end WholeBody
