import WholeBody.Config.Fields
import WholeBody.Config.Spec
import WholeBody.Toml.Document

/-!
# Configuration documents

Settings and controller descriptions as TOML documents. Every field of the settings has a default.
-/

namespace WholeBody.Config

namespace Reader

def constraintMode : Reader (ConstraintMode Float) := fun v => do
  let (tag, f) ← Fields.tagged "mode" v
  match tag with
  | "hard" => if f.endsAt 0 then some .hard else none
  | "soft" => if f.endsAt 1 then (f.required 0 "weight" number).map .soft else none
  | _ => none

def coneModel : Reader ConeModel := fun v => do
  let (tag, f) ← Fields.tagged "model" v
  match tag with
  | "linear" => if f.endsAt 1 then (f.required 0 "facets" (below UInt64.size)).map .linear else none
  | "conic" => if f.endsAt 0 then some .conic else none
  | _ => none

/-- One coefficient, or a table of two. -/
def friction : Reader (Friction Float)
  | .table es => do
    let f := Fields.named es
    return .anisotropic (← f.required 0 "mu_t1" number) (← f.required 1 "mu_t2" number)
  | v => (number v).map .isotropic

def solverBudget : Reader (SolverBudget Float) := fun v => do
  let f ← Fields.of? v
  let b : SolverBudget Float := .standard
  return {
    maxIterations := ← f.orDefault 0 "max_iterations" (below UInt32.size) b.maxIterations
    timeLimit := ← f.orDefault 1 "time_limit" number b.timeLimit }

def fallbackPolicy : Reader FallbackPolicy := fun v => do
  match ← choice v with
  | "hold_previous" => some .holdPrevious
  | "zero" => some .zero
  | _ => none

def settings : Reader (Settings Float) := fun v => do
  let f ← Fields.of? v
  let s : Settings Float := .standard
  return {
    accelerationRegularization :=
      ← f.orDefault 0 "acceleration_regularization" number s.accelerationRegularization
    jointAccelerationCosts :=
      ← f.orDefault 1 "joint_acceleration_costs" (map number) s.jointAccelerationCosts
    inputRegularization := ← f.orDefault 2 "input_regularization" number s.inputRegularization
    contactForceRegularization :=
      ← f.orDefault 3 "contact_force_regularization" number s.contactForceRegularization
    contactMode := ← f.orDefault 4 "contact_mode" constraintMode s.contactMode
    loopMode := ← f.orDefault 5 "loop_mode" constraintMode s.loopMode
    defaultFriction := ← f.orDefault 6 "default_friction" friction s.defaultFriction
    defaultCone := ← f.orDefault 7 "default_cone" coneModel s.defaultCone
    minNormalForce := ← f.orDefault 8 "min_normal_force" number s.minNormalForce
    solver := ← f.orDefault 9 "solver" solverBudget s.solver
    fallback := ← f.orDefault 10 "fallback" fallbackPolicy s.fallback }

/-- A number is a multiple of the identity, a list of numbers a diagonal, and a list of lists has
one list for each row. -/
def matrixSpec : Reader (MatrixSpec Float) :=
  orElse (fun v => (number v).map .scalar)
    (orElse (fun v => (list number v).map .diagonal)
      fun v => (list (list number) v).map .full)

def kindSpec : Reader KindSpec := fun v => do
  match ← choice v with
  | "center_of_mass" => some .centerOfMass
  | "translational_point" => some .translationalPoint
  | "rotational_frame" => some .rotationalFrame
  | "joint_space" => some .jointSpace
  | _ => none

def targetSpec : Reader (TargetSpec Float) := fun v => do
  let f ← Fields.of? v
  return {
    body := ← f.optional 0 "body" string
    offset := ← f.optional 1 "offset" vec3
    joint := ← f.optional 2 "joint" string }

def constantSpec : Reader (ConstantSpec Float) := fun v => do
  let f ← Fields.of? v
  return {
    value := ← f.required 0 "value" (list number)
    dot := ← f.optional 1 "dot" (list number)
    ddot := ← f.optional 2 "ddot" (list number) }

def objectiveSpec : Reader (ObjectiveSpec Float) := fun v => do
  let f ← Fields.of? v
  return {
    name := ← f.required 0 "name" string
    kind := ← f.required 1 "kind" kindSpec
    kp := ← f.required 2 "kp" matrixSpec
    kd := ← f.required 3 "kd" matrixSpec
    weight := ← f.required 4 "weight" matrixSpec
    target := ← f.optional 5 "target" targetSpec
    phases := ← f.orDefault 6 "phases" (map targetSpec) .empty
    window := ← f.optional 7 "window" numberPair
    phaseScales := ← f.orDefault 8 "phase_scales" (map number) .empty
    constant := ← f.optional 9 "constant" constantSpec }

def phaseKey : Reader PhaseKey
  | .string s => some (.text s)
  | v => (below UInt32.size v).map fun n => .id ⟨n.toUInt32⟩

def contactSpec : Reader (ContactSpec Float) := fun v => do
  let f ← Fields.of? v
  return {
    name := ← f.required 0 "name" string
    body := ← f.required 1 "body" string
    offset := ← f.required 2 "offset" vec3
    phases := ← f.required 3 "phases" (list phaseKey)
    normal := ← f.optional 4 "normal" vec3
    friction := ← f.optional 5 "friction" friction
    cone := ← f.optional 6 "cone" coneModel }

def configSpec : Reader (ConfigSpec Float) := fun v => do
  let f ← Fields.of? v
  return {
    settings := ← f.orDefault 0 "settings" settings .standard
    objectives := ← f.orDefault 1 "objectives" (list objectiveSpec) []
    contacts := ← f.orDefault 2 "contacts" (list contactSpec) [] }

end Reader

/-- Reads a document. -/
def readDocument {β : Type} (r : Reader β) (source : String) : Except (ConfigError Float) β :=
  match (Toml.parse? source).bind fun es => r (.table es) with
  | some b => .ok b
  | none => .error .malformed

end Config

/-- Reads settings and checks them. -/
def Settings.ofToml (source : String) : Except (ConfigError Float) (Settings Float) := do
  let s ← Config.readDocument Config.Reader.settings source
  s.validate
  return s

namespace ConfigSpec

def ofToml (source : String) : Except (ConfigError Float) (ConfigSpec Float) :=
  Config.readDocument Config.Reader.configSpec source

/-- Reads the contents of a file, which is `none` when the file cannot be read. -/
def ofContents (contents : Option String) : Except (ConfigError Float) (ConfigSpec Float) :=
  match contents with
  | some source => ofToml source
  | none => .error .unreadable

end ConfigSpec

/-- The configuration in the contents of a file. -/
def ControllerConfig.ofContents (contents : Option String) :
    Attempt (ConfigError Float) (ControllerConfig Float) := do
  let spec ← .ofExcept id (ConfigSpec.ofContents contents)
  spec.toConfig

end WholeBody
