import WholeBody.Linear.Mat

/-!
# Eigenvalues of symmetric matrices

Whether a matrix is positive semidefinite is read off its least eigenvalue. Scalars that can tell
that eigenvalue form the class `Spectrum`. Cyclic Jacobi rotations find it for any scalars up to
their rounding: each rotation annihilates one entry off the diagonal, and after a few sweeps over
all of them the diagonal holds the eigenvalues.
-/

namespace WholeBody

/-- Scalars with the least eigenvalue of a symmetric matrix, read off its lower triangle. -/
class Spectrum (α : Type) [Scalar α] where
  leastEigenvalue : Mat α → α

namespace Jacobi

variable {α : Type} [Scalar α]

/-- The symmetric matrix with the lower triangle of `m`. -/
def mirrorLower (m : Mat α) : Mat α :=
  .ofFn m.rows m.rows fun i j => if j ≤ i then m.entry i j else m.entry j i

/-- Cosine and sine of the rotation that annihilates entry `(p, q)`. -/
def rotation (m : Mat α) (p q : Nat) : α × α :=
  let θ := (m.entry q q - m.entry p p) / Scalar.double (m.entry p q)
  let r := Scalar.abs θ + Scalar.sqrt (θ * θ + 1)
  let t := if θ < 0 then -(1 / r) else 1 / r
  let c := 1 / Scalar.sqrt (t * t + 1)
  (c, t * c)

/-- The matrix with its columns `p` and `q` rotated. -/
def rotateCols (m : Mat α) (p q : Nat) (c s : α) : Mat α :=
  .ofFn m.rows m.cols fun i j =>
    if j = p then c * m.entry i p - s * m.entry i q
    else if j = q then s * m.entry i p + c * m.entry i q
    else m.entry i j

/-- One rotation of rows and columns. An entry that is zero already is left alone. -/
def annihilate (m : Mat α) (pq : Nat × Nat) : Mat α :=
  if Scalar.IsZero (m.entry pq.1 pq.2) then m
  else
    let r := rotation m pq.1 pq.2
    (rotateCols (rotateCols m pq.1 pq.2 r.1 r.2).transpose pq.1 pq.2 r.1 r.2).transpose

/-- The places above the diagonal, row by row. -/
def places (n : Nat) : List (Nat × Nat) :=
  (List.range n).flatMap fun p => ((List.range n).filter (p < ·)).map fun q => (p, q)

/-- The given number of sweeps. -/
def sweeps : Nat → Mat α → Mat α
  | 0, m => m
  | n + 1, m => sweeps n ((places m.rows).foldl annihilate m)

/-- Thirty sweeps bring any matrix of moderate size to its diagonal. It is scaled to entries of
magnitude at most one before, and its eigenvalues are scaled back. -/
def leastEigenvalue (m : Mat α) : α :=
  let scale := m.maxAbs
  if Scalar.IsZero scale then 0
  else
    let s := mirrorLower m
    let d := sweeps 30 (.ofFn s.rows s.cols fun i j => s.entry i j / scale)
    Scalar.minimum ((List.range d.rows).map fun i => d.entry i i * scale)

end Jacobi

end WholeBody
