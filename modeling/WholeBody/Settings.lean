import WholeBody.Contact.Friction
import WholeBody.Program.Relaxation

/-!
# Settings

The numeric settings that all objectives and contacts of a controller share.
-/

namespace WholeBody

/-- What the controller emits when a tick cannot be solved. -/
inductive FallbackPolicy where
  /-- Repeat the last command, or zeros when there is none yet. -/
  | holdPrevious
  /-- Zero torque. -/
  | zero
deriving DecidableEq

def FallbackPolicy.name : FallbackPolicy → String
  | holdPrevious => "HoldPrevious"
  | zero => "Zero"

/-- The most work allowed for one solve. -/
structure SolverBudget (α : Type) where
  maxIterations : Nat
  /-- In seconds. -/
  timeLimit : α

def SolverBudget.standard {α : Type} [Scalar α] : SolverBudget α :=
  ⟨100, Scalar.ofDecimal 2 2⟩

/-- Settings of the program of a tick. -/
structure Settings (α : Type) where
  /-- The weight `w` of `w ‖v̇‖²`, which keeps the accelerations unique. -/
  accelerationRegularization : α
  /-- Extra weights of the squared accelerations of single joints. -/
  jointAccelerationCosts : SortedMap String α
  inputRegularization : α
  contactForceRegularization : α
  contactMode : ConstraintMode α
  loopMode : ConstraintMode α
  /-- Friction of contacts that do not set their own. -/
  defaultFriction : Friction α
  /-- Cone form of contacts that do not set their own. -/
  defaultCone : ConeModel
  /-- Lower bound on the normal force of every active contact. -/
  minNormalForce : α
  solver : SolverBudget α
  fallback : FallbackPolicy

namespace Settings

variable {α : Type} [Scalar α]

def standard : Settings α where
  accelerationRegularization := Scalar.ofDecimal 1 4
  jointAccelerationCosts := .empty
  inputRegularization := 0
  contactForceRegularization := 0
  contactMode := .soft ((200 : Nat) : α)
  loopMode := .hard
  defaultFriction := .isotropic (Scalar.ofDecimal 4 1)
  defaultCone := .standard
  minNormalForce := 0
  solver := .standard
  fallback := .holdPrevious

/-- Accepts finite values that are not negative. -/
def checkNonnegative (field : String) (value : α) : Except (ConfigError α) Unit :=
  if Scalar.isFinite value = false ∨ value < 0 then
    .error (.invalidValue field .notFiniteNonnegative)
  else .ok ()

/-- The checks that need no robot. -/
def validate (s : Settings α) : Except (ConfigError α) Unit := do
  if Scalar.isFinite s.accelerationRegularization = false ∨ s.accelerationRegularization ≤ 0 then
    throw (.invalidValue "acceleration_regularization" .notFinitePositive)
  checkNonnegative "input_regularization" s.inputRegularization
  checkNonnegative "contact_force_regularization" s.contactForceRegularization
  checkNonnegative "min_normal_force" s.minNormalForce
  s.jointAccelerationCosts.entries.forM fun e =>
    checkNonnegative s!"joint_acceleration_costs.{e.1}" e.2
  s.contactMode.validate "contact_mode"
  s.loopMode.validate "loop_mode"
  s.defaultFriction.validate
  s.defaultCone.validate
  if s.solver.maxIterations = 0 then
    throw (.invalidValue "solver.max_iterations" .notPositive)
  if ¬ 0 < s.solver.timeLimit then
    throw (.invalidValue "solver.time_limit" .notPositive)

end Settings

end WholeBody
