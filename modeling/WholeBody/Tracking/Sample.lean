import WholeBody.Error
import WholeBody.Linear.Quaternion

/-!
# Desired trajectories

What a task should do at one moment: a value with its first and second derivative. The value of an
orientation is a quaternion `[w, x, y, z]`, and its derivatives are the angular velocity and
acceleration in world frame.
-/

namespace WholeBody

/-- A desired value and its derivatives. -/
structure TrajectorySample (α : Type) where
  value : Vec α
  dot : Vec α
  ddot : Vec α

namespace TrajectorySample

variable {α : Type} [Scalar α]

/-- A value at rest. -/
def stationary (value : Vec α) (dim : Nat) : TrajectorySample α := ⟨value, .zeros dim, .zeros dim⟩

def allFinite (s : TrajectorySample α) : Bool :=
  s.value.allFinite && s.dot.allFinite && s.ddot.allFinite

/-- Checks the lengths, the entries and, for an orientation, that the value has a direction. -/
def check (s : TrajectorySample α) (objective : String) (valueDim dim : Nat)
    (isOrientation : Bool) : Except InputError Unit := do
  if s.value.size ≠ valueDim then
    throw (.sampleDimension objective .value valueDim s.value.size)
  if s.dot.size ≠ dim then
    throw (.sampleDimension objective .dot dim s.dot.size)
  if s.ddot.size ≠ dim then
    throw (.sampleDimension objective .ddot dim s.ddot.size)
  if s.allFinite = false then
    throw (.nonFinite .sample)
  if isOrientation = true ∧ (Quaternion.ofSample? s.value).isNone = true then
    throw (.nonFinite .orientation)

end TrajectorySample

end WholeBody
