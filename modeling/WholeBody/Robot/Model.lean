import WholeBody.Error
import WholeBody.Linear.Quaternion

/-!
# Robot models

A robot model answers the quantities of the joint-space equations of motion
`M(q) v̇ + c(q, v) = B u + Jᵀλ`, where `c` is the bias of gravity, centrifugal and Coriolis forces,
and the kinematics of its points and frames. It is a structure of functions of the state, so the
controller works with any robot, whatever its answers are.
-/

namespace WholeBody

/-- Generalized positions `q` and velocities `v`. -/
structure RobotState (α : Type) where
  q : Vec α
  v : Vec α

def RobotState.allFinite {α : Type} [Scalar α] (s : RobotState α) : Bool :=
  s.q.allFinite && s.v.allFinite

/-- A point fixed to a body, given in the frame of that body. -/
structure BodyPoint (α : Type) where
  body : String
  offset : Vec3 α

/-- World position of a point, its Jacobian `J` with `ṗ = J v`, and the vector `J̇ v`. -/
structure PointKinematics (α : Type) where
  position : Vec3 α
  jacobian : Jacobian3 α
  jdotV : Vec3 α

/-- Orientation of a frame, its Jacobian `J` with world angular velocity `ω = J v`, and the vector
`J̇ v`. -/
structure FrameKinematics (α : Type) where
  orientation : Quaternion α
  jacobian : Jacobian3 α
  jdotV : Vec3 α

/-- The places of a joint in `q` and `v`. -/
structure JointIndex where
  position : Nat
  velocity : Nat

/-- Closed kinematic loops, differentiated twice: `J v̇ + J̇ v = 0`. -/
structure LoopConstraints (α : Type) where
  jacobian : Mat α
  jdotV : Vec α

/-- The answers of a robot. -/
structure RobotModel (α : Type) where
  numPositions : Nat
  numVelocities : Nat
  numActuators : Nat
  /-- The actuator selection `B`, one row for each velocity and one column for each actuator. -/
  actuation : Mat α
  /-- Bounds on the magnitude of each input, if there are any. -/
  effortLimits : Option (Vec α)
  hasBody : String → Bool
  jointIndex : String → Option JointIndex
  checkState : RobotState α → Except ModelError Unit
  massMatrix : RobotState α → Except ModelError (Mat α)
  bias : RobotState α → Except ModelError (Vec α)
  centerOfMass : RobotState α → Except ModelError (PointKinematics α)
  point : RobotState α → BodyPoint α → Except ModelError (PointKinematics α)
  frame : RobotState α → String → Except ModelError (FrameKinematics α)
  /-- Open chains have no loops. -/
  loopConstraints : RobotState α → Except ModelError (Option (LoopConstraints α))

/-- Accepts the states with `nq` positions and `nv` velocities. -/
def checkDimensions {α : Type} (nq nv : Nat) (s : RobotState α) : Except ModelError Unit :=
  if s.q.size = nq ∧ s.v.size = nv then .ok ()
  else .error (.stateDimension nq nv s.q.size s.v.size)

end WholeBody
