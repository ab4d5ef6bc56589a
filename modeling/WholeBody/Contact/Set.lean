import WholeBody.Contact.Friction
import WholeBody.Robot.Model

/-!
# Contact sets

The points of a robot that can push against the ground, and the phases in which they do. A contact
outside its phases has no force at all.
-/

namespace WholeBody

/-- A point of a body that can push against the ground. Friction and cone fall back to defaults of
the controller when they are not set. -/
structure ContactPoint (α : Type) where
  name : String
  point : BodyPoint α
  /-- Ground normal in world frame. -/
  normal : Vec3 α
  friction : Option (Friction α)
  cone : Option ConeModel

namespace ContactPoint

variable {α : Type} [Scalar α]

def frame (c : ContactPoint α) : ContactFrame α := .ofNormal c.normal

def frictionOr (c : ContactPoint α) (default : Friction α) : Friction α :=
  c.friction.getD default

def coneOr (c : ContactPoint α) (default : ConeModel) : ConeModel :=
  c.cone.getD default

/-- Checks the body, normal, offset, friction and cone of a contact, with the defaults filled in. -/
def validate (c : ContactPoint α) (model : RobotModel α) (defaultFriction : Friction α)
    (defaultCone : ConeModel) (supportsSecondOrderCones : Bool) :
    Except (ConfigError α) Unit := do
  if model.hasBody c.point.body = false then
    throw (.unknownBody c.point.body)
  if Scalar.isFinite c.normal.norm = false ∨ c.normal.norm < Scalar.ofDecimal 1 9 then
    throw (.invalidValue s!"normal of contact '{c.name}'" .noDirection)
  if c.point.offset.allFinite = false then
    throw (.invalidValue s!"offset of contact '{c.name}'" .notFinite)
  (c.frictionOr defaultFriction).validate
  (c.coneOr defaultCone).validate
  if c.coneOr defaultCone = .conic ∧ supportsSecondOrderCones = false then
    throw (.coneNotSupported c.name)

end ContactPoint

/-- The contacts on the ground in each phase, in the order of their force variables. -/
structure ContactSet (α : Type) where
  phases : SortedMap PhaseId (List (ContactPoint α))

namespace ContactSet

variable {α : Type}

def empty : ContactSet α := ⟨.empty⟩

/-- The contacts of a phase, none for a phase without an entry. -/
def active (s : ContactSet α) (p : PhaseId) : List (ContactPoint α) := (s.phases.get? p).getD []

/-- Makes `contacts` the contacts of a phase. -/
def withPhase (s : ContactSet α) (p : PhaseId) (contacts : List (ContactPoint α)) :
    ContactSet α :=
  ⟨s.phases.insert p contacts⟩

/-- Adds a contact after those that a phase has. -/
def insert (s : ContactSet α) (p : PhaseId) (contact : ContactPoint α) : ContactSet α :=
  s.withPhase p (s.active p ++ [contact])

/-- All contacts with their phase, by ascending phase. -/
def toList (s : ContactSet α) : List (PhaseId × ContactPoint α) :=
  s.phases.entries.flatMap fun e => e.2.map fun c => (e.1, c)

variable [Scalar α]

/-- Checks the contacts of one phase in order; `seen` are the names before them. -/
def validatePhase (model : RobotModel α) (defaultFriction : Friction α) (defaultCone : ConeModel)
    (supportsSecondOrderCones : Bool) (phase : PhaseId) :
    List String → List (ContactPoint α) → Except (ConfigError α) Unit
  | _, [] => .ok ()
  | seen, c :: rest => do
    if c.name ∈ seen then throw (.duplicateContact c.name phase)
    c.validate model defaultFriction defaultCone supportsSecondOrderCones
    validatePhase model defaultFriction defaultCone supportsSecondOrderCones phase
      (c.name :: seen) rest

/-- Checks every contact of every phase against a robot and the defaults. -/
def validate (s : ContactSet α) (model : RobotModel α) (defaultFriction : Friction α)
    (defaultCone : ConeModel) (supportsSecondOrderCones : Bool) :
    Except (ConfigError α) Unit :=
  s.phases.entries.forM fun e =>
    validatePhase model defaultFriction defaultCone supportsSecondOrderCones e.1 [] e.2

end ContactSet

end WholeBody
