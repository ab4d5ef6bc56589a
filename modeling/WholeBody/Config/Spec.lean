import WholeBody.Controller.Basic

/-!
# Controller descriptions

A controller as its user describes it: objectives with gains of any of three forms, targets by phase
name, contacts with the phases in which they are on the ground. `ConfigSpec.toConfig` makes a
configuration of it and finds the faults that need no robot.
-/

namespace WholeBody

/-- A gain or a weight. -/
inductive MatrixSpec (α : Type) where
  /-- A multiple of the identity. -/
  | scalar (c : α)
  | diagonal (entries : List α)
  | full (rows : List (List α))

namespace MatrixSpec

variable {α : Type} [Scalar α]

/-- The `dim × dim` matrix of a specification; `what` names it in errors. -/
def toMatrix (dim : Nat) (what : String) : MatrixSpec α → Except (ConfigError α) (Mat α)
  | scalar c => .ok (.scalarMatrix dim c)
  | diagonal entries =>
    if entries.length ≠ dim then .error (.dimensionMismatch what dim entries.length)
    else .ok (.diagonal dim fun i => entries.getD i 0)
  | full rows =>
    if rows.length ≠ dim then .error (.dimensionMismatch what dim rows.length)
    else
      match rows.find? (·.length ≠ dim) with
      | some row => .error (.dimensionMismatch what dim row.length)
      | none => .ok (.ofFn dim dim fun i j => (rows.getD i []).getD j 0)

end MatrixSpec

/-- What an objective is bound to. Which of the fields count depends on its kind. -/
structure TargetSpec (α : Type) where
  body : Option String
  offset : Option (Vec3 α)
  joint : Option String

/-- A fixed target. Derivatives that are not given are zero. -/
structure ConstantSpec (α : Type) where
  value : List α
  dot : Option (List α)
  ddot : Option (List α)

inductive KindSpec where
  | centerOfMass
  | translationalPoint
  | rotationalFrame
  | jointSpace
deriving DecidableEq

/-- A tracking objective. The keys of `phases` and `phaseScales` are names or numbers of phases. -/
structure ObjectiveSpec (α : Type) where
  name : String
  kind : KindSpec
  kp : MatrixSpec α
  kd : MatrixSpec α
  weight : MatrixSpec α
  /-- The target in every phase. -/
  target : Option (TargetSpec α)
  /-- A target for each phase. It excludes `target`. -/
  phases : SortedMap String (TargetSpec α)
  /-- Start and end, in seconds since the phase began. -/
  window : Option (α × α)
  phaseScales : SortedMap String α
  constant : Option (ConstantSpec α)

/-- A phase, by number or by text. -/
inductive PhaseKey where
  | id (p : PhaseId)
  | text (s : String)

/-- A contact with the phases in which it is on the ground. -/
structure ContactSpec (α : Type) where
  name : String
  body : String
  offset : Vec3 α
  phases : List PhaseKey
  normal : Option (Vec3 α)
  friction : Option (Friction α)
  cone : Option ConeModel

/-- A whole controller. -/
structure ConfigSpec (α : Type) where
  settings : Settings α
  objectives : List (ObjectiveSpec α)
  contacts : List (ContactSpec α)

variable {α : Type}

/-- The phase that a text denotes. -/
def readPhase (s : String) : Except (ConfigError α) PhaseId :=
  match PhaseId.ofText? s with
  | some p => .ok p
  | none => .error (.invalidValue "phase" (.unknownPhase s))

def PhaseKey.phase : PhaseKey → Except (ConfigError α) PhaseId
  | id p => .ok p
  | text s => readPhase s

/-- The fault of an objective without a field. -/
def missingField (objective field : String) : ConfigError α :=
  .invalidValue s!"objectives.{objective}.{field}" .missing

namespace TargetSpec

def bodyPoint [Scalar α] (t : TargetSpec α) (objective : String) :
    Except (ConfigError α) (BodyPoint α) :=
  match t.body with
  | some body => .ok ⟨body, t.offset.getD 0⟩
  | none => .error (missingField objective "body")

def frame (t : TargetSpec α) (objective : String) : Except (ConfigError α) String :=
  match t.body with
  | some body => .ok body
  | none => .error (missingField objective "body")

def jointName (t : TargetSpec α) (objective : String) : Except (ConfigError α) String :=
  match t.joint with
  | some joint => .ok joint
  | none => .error (missingField objective "joint")

end TargetSpec

namespace ObjectiveSpec

/-- The binding of an objective, whose targets are read by `resolve`. -/
def binding {τ : Type} (o : ObjectiveSpec α)
    (resolve : TargetSpec α → Except (ConfigError α) τ) :
    Except (ConfigError α) (PhaseBinding τ) :=
  match o.target, o.phases.isEmpty with
  | some target, true => do return .always (← resolve target)
  | none, false => do
    let targets ← o.phases.entries.mapM fun e => do
      let phase ← readPhase e.1
      let target ← resolve e.2
      return (phase, target)
    return .perPhase (.ofList targets)
  | some _, false => .error (.invalidValue s!"objectives.{o.name}" .targetAndPhases)
  | none, true => .error (missingField o.name "target")

variable [Scalar α]

/-- The kind of an objective with its binding. The center of mass needs no target, so its binding
tells only the phases. -/
def objectiveKind (o : ObjectiveSpec α) : Except (ConfigError α) (ObjectiveKind α) :=
  match o.kind with
  | .centerOfMass =>
    if o.phases.isEmpty then .ok (.centerOfMass (.always ()))
    else do return .centerOfMass (← o.binding fun _ => .ok ())
  | .translationalPoint => do return .translationalPoint (← o.binding (·.bodyPoint o.name))
  | .rotationalFrame => do return .rotationalFrame (← o.binding (·.frame o.name))
  | .jointSpace => do return .jointSpace (← o.binding (·.jointName o.name))

/-- The matrix in a role of an objective. -/
def matrix (o : ObjectiveSpec α) (role : MatrixRole) (spec : MatrixSpec α) (dim : Nat) :
    Except (ConfigError α) (Mat α) :=
  spec.toMatrix dim (matrixOf role o.name)

/-- Applies the window. -/
def applyWindow (o : ObjectiveSpec α) (t : TrackingObjective α) :
    Except (ConfigError α) (TrackingObjective α) :=
  match o.window with
  | some (start, stop) => t.withWindow start stop
  | none => .ok t

/-- Applies the scales of the phases, by ascending key. -/
def applyScales (o : ObjectiveSpec α) (t : TrackingObjective α) :
    Except (ConfigError α) (TrackingObjective α) :=
  o.phaseScales.entries.foldlM (fun t e => do t.withPhaseScale (← readPhase e.1) e.2) t

/-- Applies the fixed target. -/
def applyConstant (o : ObjectiveSpec α) (dim : Nat) (t : TrackingObjective α) :
    Except (ConfigError α) (TrackingObjective α) :=
  match o.constant with
  | some c =>
    let derivative (d : Option (List α)) := (d.map Vec.ofList).getD (.zeros dim)
    t.withConstantTarget ⟨.ofList c.value, derivative c.dot, derivative c.ddot⟩
  | none => .ok t

/-- The objective of a description. -/
def toObjective [Spectrum α] (o : ObjectiveSpec α) :
    Attempt (ConfigError α) (TrackingObjective α) := do
  let kind ← .ofExcept id o.objectiveKind
  let kp ← .ofExcept id (o.matrix .kp o.kp kind.dim)
  let kd ← .ofExcept id (o.matrix .kd o.kd kind.dim)
  let weight ← .ofExcept id (o.matrix .weight o.weight kind.dim)
  let t ← TrackingObjective.create o.name kind ⟨kp, kd⟩ weight
  let t ← .ofExcept id (o.applyWindow t)
  let t ← .ofExcept id (o.applyScales t)
  .ofExcept id (o.applyConstant kind.dim t)

end ObjectiveSpec

namespace ContactSpec

variable [Scalar α]

def contactPoint (c : ContactSpec α) : ContactPoint α where
  name := c.name
  point := ⟨c.body, c.offset⟩
  normal := c.normal.getD .unitZ
  friction := c.friction
  cone := c.cone

/-- Adds the contact to each of its phases, of which there must be one. -/
def addTo (c : ContactSpec α) (s : ContactSet α) : Except (ConfigError α) (ContactSet α) :=
  if c.phases.isEmpty then .error (.invalidValue s!"contacts.{c.name}.phases" .neverActive)
  else c.phases.foldlM (fun s key => do return s.insert (← key.phase) c.contactPoint) s

end ContactSpec

/-- The configuration of a description. -/
def ConfigSpec.toConfig [Scalar α] [Spectrum α] (spec : ConfigSpec α) :
    Attempt (ConfigError α) (ControllerConfig α) := do
  .ofExcept id spec.settings.validate
  let contacts ← .ofExcept id (spec.contacts.foldlM (fun s c => c.addTo s) .empty)
  let objectives ← spec.objectives.mapM ObjectiveSpec.toObjective
  return { settings := spec.settings, objectives, contacts }

end WholeBody
