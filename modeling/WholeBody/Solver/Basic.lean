import WholeBody.Program.Cone
import WholeBody.Settings

/-!
# Solvers

A solver answers a cone program with a point, within a budget. It may have a state of its own, which
each answer may change. The controller trusts neither the length nor the entries of an answer.
-/

namespace WholeBody

/-- A solver with states of type `σ`. -/
structure Solver (σ α : Type) where
  supportsSecondOrderCones : Bool
  solve : σ → ConeProgram α → SolverBudget α → Except SolverError (Vec α) × σ

end WholeBody
