import WholeBody.Error
import WholeBody.Linear.Mat
import WholeBody.Program.Span

/-!
# Hard and soft constraints

A hard holonomic family is imposed exactly, `J v̇ + J̇ v = 0`. A soft one has a slack for each row,
`J v̇ + J̇ v - s = 0`, and pays `w ‖s‖²`, so that the program stays feasible when contacts, loops
and dynamics cannot all be met.
-/

namespace WholeBody

/-- How a holonomic family is imposed. -/
inductive ConstraintMode (α : Type) where
  | hard
  | soft (weight : α)

namespace ConstraintMode

variable {α : Type}

/-- Number of slack variables of a family of `rows` rows. -/
def slackRows (mode : ConstraintMode α) (rows : Nat) : Nat :=
  match mode with
  | hard => 0
  | soft _ => rows

variable [Scalar α]

def validate (field : String) : ConstraintMode α → Except (ConfigError α) Unit
  | hard => .ok ()
  | soft weight =>
    if Scalar.isFinite weight = false ∨ weight ≤ 0 then
      .error (.invalidValue field (.softWeight weight))
    else .ok ()

end ConstraintMode

variable {α : Type} [Scalar α]

/-- Adds `w ‖x‖²` over a block of variables to the Hessian of the cost `½ xᵀ P x`. -/
def addPenalty (P : Mat α) (block : Span) (weight : α) : Mat α :=
  P.addDiagonal block.start block.size (Scalar.double weight)

/-- Adds the penalty unless its weight is zero. -/
def addRegularization (P : Mat α) (block : Span) (weight : α) : Mat α :=
  if Scalar.IsZero weight then P else addPenalty P block weight

/-- The constraint rows of a family over all `n` variables: the Jacobian in the acceleration columns
and minus the identity in the slack columns. -/
def holonomicRows (jacobian : Mat α) (accel : Span) (slack : Option Span) (n : Nat) : Mat α :=
  let rows := (Mat.zeros jacobian.rows n).setBlock 0 accel.start jacobian
  match slack with
  | none => rows
  | some s => rows.setBlock 0 s.start (-Mat.identity jacobian.rows)

/-- Whether the rows of a family fit into `n` variables. -/
def HolonomicFits (jacobian : Mat α) (accel : Span) (slack : Option Span) (n : Nat) : Prop :=
  jacobian.cols = accel.size ∧ accel.start + accel.size ≤ n ∧
    ∀ s ∈ slack, s.size = jacobian.rows ∧ s.start + s.size ≤ n

instance (jacobian : Mat α) (accel : Span) (slack : Option Span) (n : Nat) :
    Decidable (HolonomicFits jacobian accel slack n) := by
  unfold HolonomicFits
  infer_instance

end WholeBody
