import WholeBody.Robot.Model

/-!
# A point mass

The simplest robot that can be balanced: a mass under gravity without actuators. Its state is its
position and its velocity. All points of its body coincide, so every contact Jacobian is the
identity.
-/

namespace WholeBody

/-- A mass with the name of its only body. -/
structure PointMass (α : Type) where
  body : String
  mass : α
  gravity : α

namespace PointMass

variable {α : Type} [Scalar α]

def kinematics (s : RobotState α) : PointKinematics α where
  position := Vec3.ofVec s.q 0
  jacobian := .ofBlocks 3 .identity .zero
  jdotV := 0

def model (r : PointMass α) : RobotModel α where
  numPositions := 3
  numVelocities := 3
  numActuators := 0
  actuation := .zeros 3 0
  effortLimits := none
  hasBody b := b = r.body
  jointIndex _ := none
  checkState := checkDimensions 3 3
  massMatrix s := do
    checkDimensions 3 3 s
    return .scalarMatrix 3 r.mass
  bias s := do
    checkDimensions 3 3 s
    return .ofList [0, 0, r.mass * r.gravity]
  centerOfMass s := do
    checkDimensions 3 3 s
    return kinematics s
  point s p := do
    if p.body ≠ r.body then throw (.unknownBody p.body)
    checkDimensions 3 3 s
    return kinematics s
  frame s b := do
    if b ≠ r.body then throw (.unknownBody b)
    checkDimensions 3 3 s
    -- A point has no orientation to steer.
    return { orientation := .one, jacobian := .ofBlocks 3 .zero .zero, jdotV := 0 }
  loopConstraints _ := .ok none

/-- One semi-implicit Euler step: the new velocity moves the position. There is none when the sizes
do not fit together. -/
def integrate (s : RobotState α) (vdot : Vec α) (dt : α) : Option (RobotState α) :=
  if s.v.size = vdot.size ∧ s.q.size = s.v.size then
    let v := s.v + dt • vdot
    some { q := s.q + dt • v, v }
  else none

end PointMass

end WholeBody
