import WholeBody.Linear.Mat

/-!
# Task terms

What an active task adds to the cost of one tick: the weighted square of its acceleration error,
`(J v̇ + J̇ v - ÿ)ᵀ W (J v̇ + J̇ v - ÿ)`, in the acceleration block of the cost `½ xᵀ P x + qᵀ x`.
Its constant part is dropped.
-/

namespace WholeBody

/-- The term of one task. -/
structure TaskTerm (α : Type) where
  name : String
  jacobian : Mat α
  jdotV : Vec α
  /-- The commanded task acceleration `ÿ`. -/
  ddyCmd : Vec α
  weight : Mat α
  /-- Desired minus actual position. -/
  error : Vec α

namespace TaskTerm

variable {α : Type} [Scalar α]

/-- Whether the sizes of a term fit together and its Jacobian fits into `n` variables. -/
def Fits (t : TaskTerm α) (n : Nat) : Prop :=
  t.weight.rows = t.jacobian.rows ∧ t.weight.cols = t.jacobian.rows ∧
    t.jdotV.size = t.jacobian.rows ∧ t.ddyCmd.size = t.jacobian.rows ∧ t.jacobian.cols ≤ n

instance (t : TaskTerm α) (n : Nat) : Decidable (t.Fits n) :=
  inferInstanceAs (Decidable (_ ∧ _ ∧ _ ∧ _ ∧ _))

/-- `Jᵀ W`. -/
def weightedJacobian (t : TaskTerm α) : Mat α := t.jacobian.transpose * t.weight

/-- `2 Jᵀ W J`, its share of the Hessian. -/
def hessian (t : TaskTerm α) : Mat α :=
  ((2 : Nat) : α) • (t.weightedJacobian * t.jacobian)

/-- `2 Jᵀ W (J̇ v - ÿ)`, its share of the linear cost. -/
def gradient (t : TaskTerm α) : Vec α :=
  ((2 : Nat) : α) • t.weightedJacobian.mulVec (t.jdotV - t.ddyCmd)

end TaskTerm

end WholeBody
