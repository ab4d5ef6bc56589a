import WholeBody.Program.Assembly
import WholeBody.Solver.Basic
import WholeBody.Tracking.Objective

/-!
# The controller

A whole-body operational space controller. Every tick it resolves the active objectives and contacts
from the gait phase, assembles a cone program, has it solved and emits one torque for each
actuator.

`Controller.tick` always emits a command: when an input is missing or invalid the previous one is
held, and when the model or the solver fails the fallback policy decides. A controller is a value,
and each call returns the next one together with its result and what it has to log.
-/

namespace WholeBody

/-- A complete configuration. -/
structure ControllerConfig (α : Type) where
  settings : Settings α
  objectives : List (TrackingObjective α)
  contacts : ContactSet α

/-- What the controller receives for one tick. State or phase are missing when the estimator or the
gait has dropped out. -/
structure TickInputs (α : Type) where
  time : α
  state : Option (RobotState α)
  phase : Option (GaitPhase α)
  /-- The desired trajectory of an objective, by its name. -/
  samples : String → Option (TrajectorySample α)

inductive CommandStatus where
  /-- Torques of the solved program. -/
  | solved
  /-- The solve failed, and the fallback policy has decided. -/
  | fallback
  /-- Inputs were missing or invalid, and the previous command is held. -/
  | skipped
deriving DecidableEq

/-- One torque for each actuator. -/
structure TorqueCommand (α : Type) where
  time : α
  torques : Vec α
  status : CommandStatus

/-- The solution of one tick. -/
structure TickSolution (α : Type) where
  phase : PhaseId
  accelerations : Vec α
  /-- The world-frame force of each active contact, by its name. -/
  contactForces : List (String × Vec3 α)
  loopForces : Vec α
  inputs : Vec α
  contactSlack : Vec α
  loopSlack : Vec α
  /-- The terms of the active objectives. -/
  terms : List (TaskTerm α)
  cost : α
  /-- The largest violation of a constraint. -/
  violation : α

namespace TickSolution

variable {α : Type}

def contactForce? (s : TickSolution α) (name : String) : Option (Vec3 α) :=
  (s.contactForces.find? (·.1 = name)).map (·.2)

def term? (s : TickSolution α) (name : String) : Option (TaskTerm α) :=
  s.terms.find? (·.name = name)

end TickSolution

/-- Counters of what the controller has done. -/
structure Diagnostics where
  ticks : Nat
  solves : Nat
  failures : Nat
  skipped : Nat
  lastFailure : Option String
  /-- Whether any solve has been timed. -/
  timed : Bool

def Diagnostics.initial : Diagnostics := ⟨0, 0, 0, 0, none, false⟩

/-- What there is to log. -/
inductive LogEvent (α : Type) where
  | configured (nv nu objectives phases : Nat)
  | solved (time : α) (phase : PhaseId) (columns rows objectives contacts : Nat)
  | skipped (time : α) (fault : InputError)
  | fellBack (time : α) (fault : TickError) (policy : FallbackPolicy)

/-- A controller with a solver state of type `σ`. -/
structure Controller (σ α : Type) where
  config : ControllerConfig α
  model : RobotModel α
  solver : Solver σ α
  solverState : σ
  assembler : Assembler α
  lastCommand : Option (Vec α)
  /-- The solution behind the last command, if that tick was solved. -/
  lastSolution : Option (TickSolution α)
  diagnostics : Diagnostics

/-- The outcome of a call: the next controller, a result and the events to log. -/
structure Outcome (σ α β : Type) where
  controller : Controller σ α
  result : β
  log : List (LogEvent α)

namespace Controller

variable {σ α : Type} [Scalar α]

/-! ### Start -/

/-- Checks the actuation and the effort limits of a robot. -/
def checkActuators (model : RobotModel α) : Except (ConfigError α) Unit := do
  let nv := model.numVelocities
  let nu := model.numActuators
  let B := model.actuation
  if B.rows ≠ nv ∨ B.cols ≠ nu then
    throw (.dimensionMismatch "actuation matrix" (nv * nu) (B.rows * B.cols))
  match model.effortLimits with
  | none => return
  | some limits =>
    if limits.size ≠ nu then
      throw (.dimensionMismatch "effort limits" nu limits.size)
    if limits.toList.any (fun l => Scalar.isFinite l = false ∨ l < 0) then
      throw (.invalidValue "effort limits" .notFiniteNonnegative)

/-- Checks the objectives in order; `seen` are the names before them. -/
def checkObjectives (model : RobotModel α) :
    List String → List (TrackingObjective α) → Except (ConfigError α) Unit
  | _, [] => .ok ()
  | seen, o :: rest => do
    if o.name ∈ seen then throw (.duplicateObjective o.name)
    o.validateAgainst model
    checkObjectives model (o.name :: seen) rest

/-- Starts a controller, after all checks of its configuration. -/
def create (config : ControllerConfig α) (model : RobotModel α) (solver : Solver σ α)
    (solverState : σ) : Except (ConfigError α) (Controller σ α) := do
  let settings := config.settings
  settings.validate
  checkActuators model
  checkObjectives model [] config.objectives
  config.contacts.validate model settings.defaultFriction settings.defaultCone
    solver.supportsSecondOrderCones
  let assembler ← Assembler.create settings model
  return {
    config, model, solver, solverState, assembler
    lastCommand := none
    lastSolution := none
    diagnostics := .initial }

/-- What there is to log at the start. -/
def startEvent (c : Controller σ α) : LogEvent α :=
  .configured c.model.numVelocities c.model.numActuators c.config.objectives.length
    c.config.contacts.phases.size

/-! ### The program of a tick -/

/-- A program with what its solution refers to. -/
structure Prepared (α : Type) where
  program : ConeProgram α
  terms : List (TaskTerm α)
  contacts : List (ContactPoint α)
  phase : PhaseId

/-- State and phase, when both are there and finite. -/
def readInputs (inputs : TickInputs α) :
    Except InputError (RobotState α × GaitPhase α) := do
  let some state := inputs.state | throw .missingState
  let some phase := inputs.phase | throw .missingPhase
  if Scalar.isFinite inputs.time = false ∨ Scalar.isFinite phase.transitionTime = false then
    throw (.nonFinite .time)
  if state.allFinite = false then
    throw (.nonFinite .state)
  return (state, phase)

/-- The terms of the active objectives, in order. -/
def activeTerms (c : Controller σ α) (state : RobotState α) (phase : PhaseId) (timeInPhase : α)
    (samples : String → Option (TrajectorySample α)) :
    List (TrackingObjective α) → Attempt TickError (List (TaskTerm α))
  | [] => .ok []
  | o :: rest => do
    let term ← o.evaluate c.model state phase timeInPhase (samples o.name)
    let terms ← c.activeTerms state phase timeInPhase samples rest
    return term.toList ++ terms

/-- The program of a tick. -/
def prepare (c : Controller σ α) (inputs : TickInputs α) : Attempt TickError (Prepared α) := do
  let (state, phase) ← .ofExcept .input (readInputs inputs)
  .ofExcept .model (c.model.checkState state)
  let terms ← c.activeTerms state phase.id (phase.timeInPhase inputs.time) inputs.samples
    c.config.objectives
  let contacts := c.config.contacts.active phase.id
  let program ← (c.assembler.build c.model state terms contacts).mapError .model
  if program.allFinite = false then
    Attempt.fail (.model .nonFiniteProgram)
  return { program, terms, contacts, phase := phase.id }

/-- The program of a tick, without solving it. -/
def problem (c : Controller σ α) (inputs : TickInputs α) : Attempt TickError (ConeProgram α) := do
  let p ← c.prepare inputs
  return p.program

/-! ### Solving -/

/-- Accepts a finite answer of the right length. -/
def checkAnswer (n : Nat) (x : Vec α) : Except SolverError Unit := do
  if x.size ≠ n then throw (.solutionDimension n x.size)
  if x.allFinite = false then throw .nonFinite

/-- The entries of a span. -/
def block (x : Vec α) (s : Span) : Vec α := x.slice s.start s.size

/-- Reads the solution of a tick off the answer of the solver. -/
def Prepared.solution (p : Prepared α) (x : Vec α) : TickSolution α :=
  let l := p.program.layout
  { phase := p.phase
    accelerations := block x l.accelerations
    contactForces := p.contacts.zipIdx.map fun e =>
      (e.1.name, Vec3.ofVec x (l.contact e.2).start)
    loopForces := block x l.loopForces
    inputs := block x l.inputs
    contactSlack := block x l.contactSlack
    loopSlack := block x l.loopSlack
    terms := p.terms
    cost := p.program.cost x
    violation := p.program.maxViolation x }

/-- Whether the blocks of the layout and the force of every contact are within a vector of length
`n`. -/
def Prepared.SpansFit (p : Prepared α) (n : Nat) : Prop :=
  let l := p.program.layout
  (∀ s ∈ [l.accelerations, l.loopForces, l.inputs, l.contactSlack, l.loopSlack],
    s.start + s.size ≤ n) ∧
    ∀ e ∈ p.contacts.zipIdx, (l.contact e.2).stop ≤ n

instance (p : Prepared α) (n : Nat) : Decidable (p.SpansFit n) := by
  unfold Prepared.SpansFit
  infer_instance

/-- Checks the answer of the solver and reads the solution off it. -/
def Prepared.read (p : Prepared α) (answer : Except SolverError (Vec α)) :
    Attempt TickError (TickSolution α) := do
  let x ← .ofExcept .solver answer
  .ofExcept .solver (checkAnswer p.program.numVariables x)
  Attempt.conforming (p.program.Evaluable x ∧ p.SpansFit x.size)
  return p.solution x

/-- The event of a solved program. -/
def Prepared.event (p : Prepared α) (time : α) : LogEvent α :=
  .solved time p.phase p.program.numVariables p.program.numConstraints p.terms.length
    p.program.layout.numContacts

/-- Solves the program of a tick. -/
def solve (c : Controller σ α) (inputs : TickInputs α) :
    Outcome σ α (Attempt TickError (TickSolution α)) :=
  match c.prepare inputs with
  | .error e => ⟨c, .error e, []⟩
  | .ok p =>
    let (answer, solverState) := c.solver.solve c.solverState p.program c.config.settings.solver
    let c := { c with solverState }
    match p.read answer with
    | .error e => ⟨c, .error e, []⟩
    | .ok solution =>
      let diagnostics := { c.diagnostics with solves := c.diagnostics.solves + 1, timed := true }
      ⟨{ c with diagnostics }, .ok solution, [p.event inputs.time]⟩

/-! ### Ticks -/

def zeroCommand (c : Controller σ α) : Vec α := .zeros c.model.numActuators

/-- The last command, or zeros when there is none yet. -/
def previousOrZero (c : Controller σ α) : Vec α := c.lastCommand.getD c.zeroCommand

/-- The torques after a failure of the model or the solver. -/
def fallbackTorques (c : Controller σ α) : Vec α :=
  match c.config.settings.fallback with
  | .holdPrevious => c.previousOrZero
  | .zero => c.zeroCommand

/-- Emits a command and remembers its torques. -/
def emit (c : Controller σ α) (time : α) (torques : Vec α) (status : CommandStatus)
    (log : List (LogEvent α)) : Outcome σ α (Option (TorqueCommand α)) :=
  ⟨{ c with lastCommand := some torques }, some ⟨time, torques, status⟩, log⟩

/-- Counts a skipped tick and holds the previous command. -/
def skip (c : Controller σ α) (time : α) (e : InputError) :
    Outcome σ α (Option (TorqueCommand α)) :=
  let diagnostics := { c.diagnostics with
    skipped := c.diagnostics.skipped + 1, lastFailure := some e.message }
  emit { c with diagnostics } time c.previousOrZero .skipped [.skipped time e]

/-- Counts a failure and falls back. -/
def fallBack (c : Controller σ α) (time : α) (e : TickError) :
    Outcome σ α (Option (TorqueCommand α)) :=
  let diagnostics := { c.diagnostics with
    failures := c.diagnostics.failures + 1, lastFailure := some e.message }
  emit { c with diagnostics } time c.fallbackTorques .fallback
    [.fellBack time e c.config.settings.fallback]

/-- Runs one tick. There is always a command, unless sizes do not fit together that `create` cannot
check: those of a joint index out of the range of the state. -/
def tick (c : Controller σ α) (inputs : TickInputs α) :
    Outcome σ α (Option (TorqueCommand α)) :=
  let diagnostics := { c.diagnostics with ticks := c.diagnostics.ticks + 1 }
  let outcome := { c with diagnostics, lastSolution := none }.solve inputs
  let c := outcome.controller
  match outcome.result with
  | .ok solution =>
    emit { c with lastSolution := some solution } inputs.time solution.inputs .solved outcome.log
  | .error (.error (.input e)) => c.skip inputs.time e
  | .error (.error e) => c.fallBack inputs.time e
  | .error .nonconforming => ⟨c, none, []⟩

end Controller

end WholeBody
