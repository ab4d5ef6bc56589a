import WholeBody.Decimal.Shortest
import WholeBody.Gait

/-!
# Errors

The ways in which a configuration, a robot model, the inputs of a tick or a solver can be at fault.
Each constructor is a cause with the data that describe it, and one function per type gives the
wording.
-/

namespace WholeBody

/-- Why a computation has no result: an error of its domain, or operands whose sizes do not fit
together. -/
inductive Failure (ε : Type) where
  | error (e : ε)
  | nonconforming

/-- A computation that may fail. -/
abbrev Attempt (ε β : Type) := Except (Failure ε) β

namespace Attempt

variable {ε ε' β : Type}

/-- A result, or the error that stands in its place. -/
def ofExcept (f : ε → ε') : Except ε β → Attempt ε' β
  | .ok b => .ok b
  | .error e => .error (.error (f e))

def fail (e : ε) : Attempt ε β := .error (.error e)

/-- Goes on only when the sizes of the operands fit together. -/
def conforming (fits : Prop) [Decidable fits] : Attempt ε Unit :=
  if fits then .ok () else .error .nonconforming

/-- Reads the errors of one domain as errors of another. -/
def mapError (f : ε → ε') : Attempt ε β → Attempt ε' β
  | .ok b => .ok b
  | .error (.error e) => .error (.error (f e))
  | .error .nonconforming => .error .nonconforming

end Attempt

/-- The parts of a desired trajectory. -/
inductive SampleField where
  | value
  | dot
  | ddot

def SampleField.name : SampleField → String
  | value => "value"
  | dot => "dot"
  | ddot => "ddot"

/-- Inputs of a tick that must be finite. -/
inductive InputPart where
  | time
  | state
  | sample
  | orientation

def InputPart.name : InputPart → String
  | time => "time"
  | state => "state"
  | sample => "trajectory sample"
  | orientation => "desired orientation"

/-- Faults in what a tick receives. A tick with such a fault is skipped. -/
inductive InputError where
  | missingState
  | missingPhase
  | missingSample (objective : String)
  | sampleDimension (objective : String) (field : SampleField) (expected got : Nat)
  | nonFinite (part : InputPart)

/-- The name of the kind of fault. -/
def InputError.kind : InputError → String
  | missingState => "MissingState"
  | missingPhase => "MissingPhase"
  | missingSample .. => "MissingSample"
  | sampleDimension .. => "SampleDimension"
  | nonFinite .. => "NonFinite"

def InputError.message : InputError → String
  | missingState => "no robot state for this tick"
  | missingPhase => "no gait phase for this tick"
  | missingSample objective => s!"no desired trajectory sample for objective '{objective}'"
  | sampleDimension objective field expected got =>
    s!"sample for objective '{objective}' has {field.name} of length {got}, expected {expected}"
  | nonFinite part => s!"non-finite {part.name} input"

/-- Faults in what a robot model answers. -/
inductive ModelError where
  | unknownBody (body : String)
  | unknownJoint (joint : String)
  | shape (what : String) (rows cols gotRows gotCols : Nat)
  | jacobianColumns (what : String) (expected got : Nat)
  /-- The program assembled from the answers has an entry that is not finite. -/
  | nonFiniteProgram
  | effortLimits (expected got : Nat)
  | stateDimension (nq nv gotNq gotNv : Nat)

/-- The name of the kind of fault. -/
def ModelError.kind : ModelError → String
  | unknownBody .. => "UnknownBody"
  | unknownJoint .. => "UnknownJoint"
  | shape .. => "Shape"
  | jacobianColumns .. => "JacobianColumns"
  | nonFiniteProgram => "NonFinite"
  | effortLimits .. => "EffortLimits"
  | stateDimension .. => "StateDimension"

def ModelError.message : ModelError → String
  | unknownBody body => s!"unknown body '{body}'"
  | unknownJoint joint => s!"unknown joint '{joint}'"
  | shape what rows cols gotRows gotCols =>
    s!"{what} is {gotRows}x{gotCols}, expected {rows}x{cols}"
  | jacobianColumns what expected got =>
    s!"{what} has {got} columns, expected one per velocity ({expected})"
  | nonFiniteProgram => "model returned non-finite QP data"
  | effortLimits expected got => s!"{got} effort limits for {expected} actuators"
  | stateDimension nq nv gotNq gotNv =>
    s!"state dimension mismatch: expected (nq={nq}, nv={nv}), got (nq={gotNq}, nv={gotNv})"

/-- Failures of a solver. -/
inductive SolverError where
  | settings (reason : String)
  | setup (reason : String)
  | notConverged (status : String)
  | solutionDimension (expected got : Nat)
  | nonFinite

/-- The name of the kind of failure. -/
def SolverError.kind : SolverError → String
  | settings .. => "Settings"
  | setup .. => "Setup"
  | notConverged .. => "NotConverged"
  | solutionDimension .. => "SolutionDimension"
  | nonFinite => "NonFinite"

def SolverError.message : SolverError → String
  | settings reason => s!"solver settings rejected: {reason}"
  | setup reason => s!"solver setup rejected: {reason}"
  | notConverged status => s!"solver did not converge: {status}"
  | solutionDimension expected got => s!"solver returned {got} values for {expected} variables"
  | nonFinite => "solver returned a non-finite solution"

/-- Whatever can go wrong within one tick of the controller. -/
inductive TickError where
  | input (e : InputError)
  | model (e : ModelError)
  | solver (e : SolverError)

/-- The name of the kind of fault, after its domain. -/
def TickError.kind : TickError → String
  | input e => s!"Input.{e.kind}"
  | model e => s!"Model.{e.kind}"
  | solver e => s!"Solver.{e.kind}"

def TickError.message : TickError → String
  | input e => s!"input error: {e.message}"
  | model e => s!"model error: {e.message}"
  | solver e => s!"solver error: {e.message}"

/-- The matrices of a tracking objective. -/
inductive MatrixRole where
  | kp
  | kd
  | weight

def MatrixRole.name : MatrixRole → String
  | kp => "kp"
  | kd => "kd"
  | weight => "weight"

/-- What is wrong with the value of a configuration field. -/
inductive InvalidReason (α : Type) where
  | notFinitePositive
  | notFiniteNonnegative
  | notPositive
  | softWeight (weight : α)
  | notInterval (start stop : α)
  | phaseScale (scale : α)
  | noDirection
  | notFinite
  | missing
  | targetAndPhases
  | neverActive
  | unknownPhase (key : String)
  | input (e : InputError)

def InvalidReason.message : InvalidReason Float → String
  | notFinitePositive => "must be finite and > 0"
  | notFiniteNonnegative => "must be finite and >= 0"
  | notPositive => "must be > 0"
  | softWeight weight =>
    s!"soft constraint weight {Decimal.shortest weight} must be finite and > 0"
  | notInterval start stop =>
    s!"[{Decimal.shortest start}, {Decimal.shortest stop}] is not a valid interval"
  | phaseScale scale => s!"{Decimal.shortest scale} must be finite and >= 0"
  | noDirection => "must be finite and non-zero"
  | notFinite => "must be finite"
  | missing => "missing"
  | targetAndPhases => "set either 'target' or 'phases', not both"
  | neverActive => "contact is never active"
  | unknownPhase key => s!"'{key}' is neither a phase name nor a phase id"
  | input e => e.message

/-- Faults in a configuration. They are found before the first tick. -/
inductive ConfigError (α : Type) where
  /-- The file cannot be read. -/
  | unreadable
  /-- The text is not a configuration document. -/
  | malformed
  | nonFiniteMatrix (objective : String) (matrix : MatrixRole)
  | asymmetricMatrix (objective : String) (matrix : MatrixRole)
  | notPositiveSemidefinite (objective : String) (matrix : MatrixRole) (eigenvalue : α)
  | dimensionMismatch (what : String) (expected got : Nat)
  | duplicateObjective (name : String)
  | duplicateContact (name : String) (phase : PhaseId)
  | unknownBody (body : String)
  | unknownJoint (joint : String)
  | invalidFriction (coefficient : α)
  | tooFewFacets (facets : Nat)
  | invalidValue (field : String) (reason : InvalidReason α)
  | coneNotSupported (contact : String)

/-- The name of the kind of fault. -/
def ConfigError.kind {α : Type} : ConfigError α → String
  | unreadable => "Io"
  | malformed => "Toml"
  | nonFiniteMatrix .. => "NonFiniteMatrix"
  | asymmetricMatrix .. => "AsymmetricMatrix"
  | notPositiveSemidefinite .. => "NotPositiveSemidefinite"
  | dimensionMismatch .. => "DimensionMismatch"
  | duplicateObjective .. => "DuplicateObjective"
  | duplicateContact .. => "DuplicateContact"
  | unknownBody .. => "UnknownBody"
  | unknownJoint .. => "UnknownJoint"
  | invalidFriction .. => "InvalidFriction"
  | tooFewFacets .. => "TooFewFacets"
  | invalidValue .. => "InvalidValue"
  | coneNotSupported .. => "ConeNotSupported"

/-- A matrix of an objective, as messages call it. -/
def matrixOf (matrix : MatrixRole) (objective : String) : String :=
  s!"{matrix.name} of objective '{objective}'"

def ConfigError.message : ConfigError Float → String
  | unreadable => "IO error"
  | malformed => "TOML parse error"
  | nonFiniteMatrix objective matrix => s!"{matrixOf matrix objective} is not finite"
  | asymmetricMatrix objective matrix => s!"{matrixOf matrix objective} is not symmetric"
  | notPositiveSemidefinite objective matrix eigenvalue =>
    s!"{matrixOf matrix objective} has negative eigenvalue {Decimal.shortest eigenvalue}"
  | dimensionMismatch what expected got => s!"{what} has dimension {got}, expected {expected}"
  | duplicateObjective name => s!"objective name '{name}' is used more than once"
  | duplicateContact name phase =>
    s!"contact name '{name}' is used more than once in phase {phase.name}"
  | unknownBody body => s!"unknown body '{body}'"
  | unknownJoint joint => s!"unknown joint '{joint}'"
  | invalidFriction coefficient =>
    s!"invalid friction coefficient {Decimal.shortest coefficient} (must be finite and > 0)"
  | tooFewFacets facets => s!"linear friction cone needs at least 3 facets, got {facets}"
  | invalidValue field reason => s!"invalid value for {field}: {reason.message}"
  | coneNotSupported contact =>
    s!"contact '{contact}' uses a conic friction cone but the solver has no second-order cone support"

end WholeBody
