import WholeBody.Error
import WholeBody.Linear.Spectrum

/-!
# Gains and weights

Feedback gains and weights must be finite, symmetric and positive semidefinite. Symmetry and
definiteness are judged up to a tolerance relative to the largest entry.
-/

namespace WholeBody

/-- Position and velocity gains of a task. -/
structure FeedbackGains (α : Type) where
  kp : Mat α
  kd : Mat α

namespace FeedbackGains

variable {α : Type} [Scalar α]

/-- The same gains on every task axis. -/
def uniform (dim : Nat) (kp kd : α) : FeedbackGains α :=
  ⟨.scalarMatrix dim kp, .scalarMatrix dim kd⟩

/-- Relative tolerance of the symmetry and the eigenvalue check. -/
def tolerance : α := Scalar.ofDecimal 1 9

/-- The size that entries are compared with. -/
def magnitude (m : Mat α) : α := Scalar.max m.maxAbs 1

variable [Spectrum α]

/-- Checks that a matrix is a finite, symmetric and positive semidefinite `dim × dim` matrix. A
matrix without entries has no eigenvalue to check. -/
def validateMatrix (objective : String) (role : MatrixRole) (m : Mat α) (dim : Nat) :
    Attempt (ConfigError α) Unit := do
  if m.rows ≠ dim ∨ m.cols ≠ dim then
    Attempt.fail (.dimensionMismatch (matrixOf role objective) dim
      (if m.rows ≠ dim then m.rows else m.cols))
  if m.allFinite = false then
    Attempt.fail (.nonFiniteMatrix objective role)
  if tolerance * magnitude m < m.asymmetry then
    Attempt.fail (.asymmetricMatrix objective role)
  Attempt.conforming (0 < dim)
  let eigenvalue := Spectrum.leastEigenvalue m
  if eigenvalue < -tolerance * magnitude m then
    Attempt.fail (.notPositiveSemidefinite objective role eigenvalue)

/-- Checks both gains of an objective. -/
def validate (g : FeedbackGains α) (objective : String) (dim : Nat) :
    Attempt (ConfigError α) Unit := do
  validateMatrix objective .kp g.kp dim
  validateMatrix objective .kd g.kd dim

end FeedbackGains

end WholeBody
