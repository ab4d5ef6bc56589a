import WholeBody.Program.Layout

/-!
# Cone programs

The convex program of one tick: minimize `½ xᵀ P x + qᵀ x` subject to `b - A x ∈ K`, where `K` is a
product of cones in row order.
-/

namespace WholeBody

/-- The cones that a block of constraint rows can belong to. -/
inductive ConeKind where
  /-- Only zero. -/
  | zero
  /-- All entries at least zero. -/
  | nonnegative
  /-- `{(t, x) : ‖x‖ ≤ t}`. -/
  | secondOrder
deriving DecidableEq

/-- `dim` consecutive rows of one cone. -/
structure ConeBlock where
  kind : ConeKind
  dim : Nat
deriving DecidableEq

/-- Number of rows of a list of cones. -/
def coneRows : List ConeBlock → Nat
  | [] => 0
  | c :: rest => c.dim + coneRows rest

/-- A quadratic cost over a product of cones. -/
structure ConeProgram (α : Type) where
  P : Mat α
  q : Vec α
  A : Mat α
  b : Vec α
  cones : List ConeBlock
  layout : VariableLayout

namespace ConeProgram

variable {α : Type}

def numVariables (p : ConeProgram α) : Nat := p.q.size

def numConstraints (p : ConeProgram α) : Nat := p.b.size

variable [Scalar α]

def allFinite (p : ConeProgram α) : Bool :=
  p.P.allFinite && p.q.allFinite && p.A.allFinite && p.b.allFinite

/-- The cost at a point. -/
def cost (p : ConeProgram α) (x : Vec α) : α :=
  Scalar.ofDecimal 5 1 * x.dot (p.P.mulVec x) + p.q.dot x

/-- The vector `b - A x`, which should lie in the cones. -/
def residual (p : ConeProgram α) (x : Vec α) : Vec α := p.b - p.A.mulVec x

/-- How far a vector is outside a cone. -/
def coneViolation (kind : ConeKind) (s : Vec α) : α :=
  match kind with
  | .zero => s.maxAbs
  | .nonnegative => Scalar.max (-s.minimum) 0
  | .secondOrder => Scalar.max ((s.slice 1 (s.size - 1)).norm - s.entry 0) 0

/-- The larger of `worst` and the violations of the cones whose rows start at `row`. -/
def violationFrom (s : Vec α) : List ConeBlock → Nat → α → α
  | [], _, worst => worst
  | c :: rest, row, worst =>
    violationFrom s rest (row + c.dim)
      (Scalar.max worst (coneViolation c.kind (s.slice row c.dim)))

/-- The largest violation of a cone at a point. -/
def maxViolation (p : ConeProgram α) (x : Vec α) : α :=
  violationFrom (p.residual x) p.cones 0 0

/-- Whether cost and violation make sense at a point: all sizes agree, and every second-order cone
has a first row. -/
def Evaluable (p : ConeProgram α) (x : Vec α) : Prop :=
  p.P.rows = x.size ∧ p.P.cols = x.size ∧ p.q.size = x.size ∧ p.A.cols = x.size ∧
    p.A.rows = p.b.size ∧ coneRows p.cones ≤ p.b.size ∧
    ∀ c ∈ p.cones, c.kind = .secondOrder → 0 < c.dim

instance (p : ConeProgram α) (x : Vec α) : Decidable (p.Evaluable x) := by
  unfold Evaluable
  infer_instance

end ConeProgram

end WholeBody
