import WholeBody.Error
import WholeBody.Linear.Vec3

/-!
# Friction

Coulomb friction of a contact, and the two forms in which its cone enters a conic program: the exact
second-order cone, and a polygon inscribed in it. Every force that the polygon accepts is physically
realizable, and the polygon tightens toward the exact cone as its facets grow in number.
-/

namespace WholeBody

/-- A friction coefficient, which may differ between the two tangents of the contact frame. -/
inductive Friction (α : Type) where
  | isotropic (mu : α)
  | anisotropic (mu₁ mu₂ : α)

/-- The form of a friction cone. -/
inductive ConeModel where
  /-- An inscribed polygon with the given number of sides. -/
  | linear (facets : Nat)
  /-- The exact second-order cone. -/
  | conic
deriving DecidableEq

def ConeModel.standard : ConeModel := .linear 8

def ConeModel.validate {α : Type} : ConeModel → Except (ConfigError α) Unit
  | .linear facets => if facets < 3 then .error (.tooFewFacets facets) else .ok ()
  | .conic => .ok ()

namespace Friction

variable {α : Type} [Scalar α]

/-- The coefficients along the two tangents. -/
def coefficients : Friction α → α × α
  | isotropic mu => (mu, mu)
  | anisotropic mu₁ mu₂ => (mu₁, mu₂)

def checkCoefficient (mu : α) : Except (ConfigError α) Unit :=
  if Scalar.isFinite mu = false ∨ mu ≤ 0 then .error (.invalidFriction mu) else .ok ()

def validate (f : Friction α) : Except (ConfigError α) Unit := do
  checkCoefficient f.coefficients.1
  checkCoefficient f.coefficients.2

end Friction

/-- An orthonormal frame of two tangents and a normal. Forces are in world frame; the frame only
projects them. -/
structure ContactFrame (α : Type) where
  t₁ : Vec3 α
  t₂ : Vec3 α
  normal : Vec3 α

/-- The rows of a friction cone over the force of a contact. -/
inductive ConeRows (α : Type) where
  /-- `G λ ≤ 0`, one row for each facet. -/
  | polyhedral (rows : Mat α)
  /-- `S λ` is in `{(t, x) : ‖x‖ ≤ t}`. -/
  | secondOrder (rows : Mat3 α)

namespace ContactFrame

variable {α : Type} [Scalar α]

def ofNormal (normal : Vec3 α) : ContactFrame α :=
  ⟨normal.tangents.1, normal.tangents.2, normal.normalize⟩

/-- Components of a force along the two tangents and the normal. -/
def components (frame : ContactFrame α) (force : Vec3 α) : Vec3 α :=
  ⟨frame.t₁.dot force, frame.t₂.dot force, frame.normal.dot force⟩

/-- The tangential load over the normal force, in units of the friction coefficients: at most 1 for
a force in the exact cone. There is none, for it would be infinite, when a tangential load has no
normal force to carry it. -/
def frictionRatio? (frame : ContactFrame α) (friction : Friction α) (force : Vec3 α) : Option α :=
  let f := frame.components force
  let load := Scalar.hypot (f.x / friction.coefficients.1) (f.y / friction.coefficients.2)
  if f.z ≤ 0 then if Scalar.IsZero load then some 0 else none else some (load / f.z)

/-- The first tangent divided by its coefficient. -/
def scaled₁ (frame : ContactFrame α) (friction : Friction α) : Vec3 α :=
  frame.t₁.divide friction.coefficients.1

/-- The second tangent divided by its coefficient. -/
def scaled₂ (frame : ContactFrame α) (friction : Friction α) : Vec3 α :=
  frame.t₂.divide friction.coefficients.2

/-- The angle `2πk/n` of facet `k` of `n`. -/
def facetAngle (facets k : Nat) : α :=
  ((2 : Nat) : α) * Scalar.pi * (k : α) / (facets : α)

/-- Facet `k` of `n`: `cos θ f₁/μ₁ + sin θ f₂/μ₂ ≤ cos(π/n) fₙ` at its angle `θ`. -/
def facetRow (frame : ContactFrame α) (friction : Friction α) (facets k : Nat) : Vec3 α :=
  let θ : α := facetAngle facets k
  let apothem : α := Scalar.cos (Scalar.pi / (facets : α))
  Scalar.cos θ • frame.scaled₁ friction + Scalar.sin θ • frame.scaled₂ friction
    - apothem • frame.normal

/-- The rows of a friction cone in the given form. -/
def coneRows (frame : ContactFrame α) (friction : Friction α) : ConeModel → ConeRows α
  | .linear facets =>
    .polyhedral (.ofFn facets 3 fun k j => (frame.facetRow friction facets k).component j)
  | .conic => .secondOrder ⟨frame.normal, frame.scaled₁ friction, frame.scaled₂ friction⟩

/-- The row `r` and the bound `b` for which `r λ ≤ b` says that the normal force is at least
`least`. -/
def minNormalRow (frame : ContactFrame α) (least : α) : Vec3 α × α :=
  (-frame.normal, -least)

end ContactFrame

end WholeBody
