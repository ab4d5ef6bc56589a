import WholeBody.Linear.Mat

/-!
# Vectors and matrices of three dimensions

Positions, forces, angular velocities and the matrices that act on them.
-/

namespace WholeBody

/-- A vector of three dimensions. -/
@[ext] structure Vec3 (α : Type) where
  x : α
  y : α
  z : α

namespace Vec3

variable {α : Type} [Scalar α]

instance : Zero (Vec3 α) := ⟨⟨0, 0, 0⟩⟩

instance : Neg (Vec3 α) := ⟨fun v => ⟨-v.x, -v.y, -v.z⟩⟩

instance : Add (Vec3 α) := ⟨fun v w => ⟨v.x + w.x, v.y + w.y, v.z + w.z⟩⟩

instance : Sub (Vec3 α) := ⟨fun v w => ⟨v.x - w.x, v.y - w.y, v.z - w.z⟩⟩

instance : SMul α (Vec3 α) := ⟨fun c v => ⟨c * v.x, c * v.y, c * v.z⟩⟩

theorem zero_def : (0 : Vec3 α) = ⟨0, 0, 0⟩ := rfl

theorem neg_def (v : Vec3 α) : -v = ⟨-v.x, -v.y, -v.z⟩ := rfl

theorem add_def (v w : Vec3 α) : v + w = ⟨v.x + w.x, v.y + w.y, v.z + w.z⟩ := rfl

theorem sub_def (v w : Vec3 α) : v - w = ⟨v.x - w.x, v.y - w.y, v.z - w.z⟩ := rfl

theorem smul_def (c : α) (v : Vec3 α) : c • v = ⟨c * v.x, c * v.y, c * v.z⟩ := rfl

def unitX : Vec3 α := ⟨1, 0, 0⟩

def unitY : Vec3 α := ⟨0, 1, 0⟩

def unitZ : Vec3 α := ⟨0, 0, 1⟩

def dot (v w : Vec3 α) : α := v.x * w.x + v.y * w.y + v.z * w.z

def cross (v w : Vec3 α) : Vec3 α :=
  ⟨v.y * w.z - v.z * w.y, v.z * w.x - v.x * w.z, v.x * w.y - v.y * w.x⟩

/-- Euclidean length. -/
def norm (v : Vec3 α) : α := Scalar.sqrt (v.dot v)

/-- Division of every component. -/
def divide (v : Vec3 α) (c : α) : Vec3 α := ⟨v.x / c, v.y / c, v.z / c⟩

/-- The vector divided by its length. -/
def normalize (v : Vec3 α) : Vec3 α := v.divide v.norm

def allFinite (v : Vec3 α) : Bool :=
  Scalar.isFinite v.x && Scalar.isFinite v.y && Scalar.isFinite v.z

/-- The component of an axis: 0, 1 and 2 are x, y and z. -/
def component (v : Vec3 α) : Nat → α
  | 0 => v.x
  | 1 => v.y
  | 2 => v.z
  | _ => 0

def toList (v : Vec3 α) : List α := [v.x, v.y, v.z]

def toVec (v : Vec3 α) : Vec α := Vec.ofList v.toList

/-- The three entries of a vector from index `start` on. -/
def ofVec (v : Vec α) (start : Nat) : Vec3 α :=
  ⟨v.entry start, v.entry (start + 1), v.entry (start + 2)⟩

/-- The unit tangents `t₁` and `t₂` that make `(t₁, t₂, n)` a right-handed orthonormal frame for the
direction `n` of `normal`. The first one starts from the world axis x, or from y when `n` is close
to x. -/
def tangents (normal : Vec3 α) : Vec3 α × Vec3 α :=
  let n := normal.normalize
  let seed : Vec3 α := if Scalar.abs n.x < Scalar.ofDecimal 9 1 then unitX else unitY
  let t₁ := (seed - n.dot seed • n).normalize
  (t₁, n.cross t₁)

end Vec3

/-- A matrix of three rows and three columns. -/
@[ext] structure Mat3 (α : Type) where
  row₁ : Vec3 α
  row₂ : Vec3 α
  row₃ : Vec3 α

namespace Mat3

variable {α : Type} [Scalar α]

def zero : Mat3 α := ⟨0, 0, 0⟩

def diagonal (d : Vec3 α) : Mat3 α := ⟨⟨d.x, 0, 0⟩, ⟨0, d.y, 0⟩, ⟨0, 0, d.z⟩⟩

def identity : Mat3 α := diagonal ⟨1, 1, 1⟩

def transpose (m : Mat3 α) : Mat3 α :=
  ⟨⟨m.row₁.x, m.row₂.x, m.row₃.x⟩, ⟨m.row₁.y, m.row₂.y, m.row₃.y⟩, ⟨m.row₁.z, m.row₂.z, m.row₃.z⟩⟩

instance : Neg (Mat3 α) := ⟨fun m => ⟨-m.row₁, -m.row₂, -m.row₃⟩⟩

theorem neg_def (m : Mat3 α) : -m = ⟨-m.row₁, -m.row₂, -m.row₃⟩ := rfl

/-- The product of a matrix and a column vector. -/
def mulVec (m : Mat3 α) (v : Vec3 α) : Vec3 α := ⟨m.row₁.dot v, m.row₂.dot v, m.row₃.dot v⟩

instance : Mul (Mat3 α) := ⟨fun m k =>
  let c := k.transpose
  ⟨c.mulVec m.row₁, c.mulVec m.row₂, c.mulVec m.row₃⟩⟩

theorem mul_def (m k : Mat3 α) : m * k =
    ⟨k.transpose.mulVec m.row₁, k.transpose.mulVec m.row₂, k.transpose.mulVec m.row₃⟩ := rfl

def row (m : Mat3 α) : Nat → Vec3 α
  | 0 => m.row₁
  | 1 => m.row₂
  | 2 => m.row₃
  | _ => 0

def col (m : Mat3 α) (j : Nat) : Vec3 α :=
  ⟨m.row₁.component j, m.row₂.component j, m.row₃.component j⟩

def toMat (m : Mat3 α) : Mat α := Mat.ofFn 3 3 fun i j => (m.row i).component j

/-- The matrix of `w ↦ v × w`. -/
def skew (v : Vec3 α) : Mat3 α := ⟨⟨0, -v.z, v.y⟩, ⟨v.z, 0, -v.x⟩, ⟨-v.y, v.x, 0⟩⟩

end Mat3

/-- A matrix of three rows, one column for each velocity of a robot. -/
abbrev Jacobian3 (α : Type) := List (Vec3 α)

namespace Jacobian3

variable {α : Type} [Scalar α]

/-- The Jacobian with `linear` in the first three columns, `angular` in the next three, and zeros
after them. -/
def ofBlocks (cols : Nat) (linear angular : Mat3 α) : Jacobian3 α :=
  List.ofFn fun j : Fin cols =>
    if j.val < 3 then linear.col j else if j.val < 6 then angular.col (j - 3) else 0

def toMat (jacobian : Jacobian3 α) : Mat α :=
  Mat.ofFn 3 jacobian.length fun i j => (jacobian.getD j 0).component i

end Jacobian3

end WholeBody
