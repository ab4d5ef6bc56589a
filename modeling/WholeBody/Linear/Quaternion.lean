import WholeBody.Linear.Vec3

/-!
# Quaternions

Orientations are unit quaternions. `exp` and `log` pass between unit quaternions and rotation
vectors: axis times angle, in world frame.
-/

namespace WholeBody

/-- The quaternion `w + x i + y j + z k`. -/
@[ext] structure Quaternion (α : Type) where
  w : α
  x : α
  y : α
  z : α

namespace Quaternion

variable {α : Type} [Scalar α]

def one : Quaternion α := ⟨1, 0, 0, 0⟩

/-- The part along `i`, `j` and `k`. -/
def vector (q : Quaternion α) : Vec3 α := ⟨q.x, q.y, q.z⟩

def ofParts (w : α) (v : Vec3 α) : Quaternion α := ⟨w, v.x, v.y, v.z⟩

instance : Neg (Quaternion α) := ⟨fun q => ⟨-q.w, -q.x, -q.y, -q.z⟩⟩

theorem neg_def (q : Quaternion α) : -q = ⟨-q.w, -q.x, -q.y, -q.z⟩ := rfl

instance : Mul (Quaternion α) := ⟨fun p q =>
  ⟨p.w * q.w - p.x * q.x - p.y * q.y - p.z * q.z,
   p.w * q.x + p.x * q.w + p.y * q.z - p.z * q.y,
   p.w * q.y - p.x * q.z + p.y * q.w + p.z * q.x,
   p.w * q.z + p.x * q.y - p.y * q.x + p.z * q.w⟩⟩

theorem mul_def (p q : Quaternion α) : p * q =
    ⟨p.w * q.w - p.x * q.x - p.y * q.y - p.z * q.z,
     p.w * q.x + p.x * q.w + p.y * q.z - p.z * q.y,
     p.w * q.y - p.x * q.z + p.y * q.w + p.z * q.x,
     p.w * q.z + p.x * q.y - p.y * q.x + p.z * q.w⟩ := rfl

/-- The inverse of a unit quaternion. -/
def conj (q : Quaternion α) : Quaternion α := ⟨q.w, -q.x, -q.y, -q.z⟩

def normSq (q : Quaternion α) : α := q.x * q.x + q.y * q.y + q.z * q.z + q.w * q.w

def norm (q : Quaternion α) : α := Scalar.sqrt q.normSq

/-- The quaternion divided by its norm. -/
def normalize (q : Quaternion α) : Quaternion α :=
  let n := q.norm
  ⟨q.w / n, q.x / n, q.y / n, q.z / n⟩

/-- The vector turned by a unit quaternion. -/
def rotate (q : Quaternion α) (v : Vec3 α) : Vec3 α :=
  let t := (Scalar.double 1 : α) • (q.vector.cross v)
  q.w • t + q.vector.cross t + v

/-- The rotation matrix of a unit quaternion. -/
def toMat3 (q : Quaternion α) : Mat3 α :=
  let ww := q.w * q.w
  let xx := q.x * q.x
  let yy := q.y * q.y
  let zz := q.z * q.z
  let xy := Scalar.double (q.x * q.y)
  let wz := Scalar.double (q.w * q.z)
  let wy := Scalar.double (q.w * q.y)
  let xz := Scalar.double (q.x * q.z)
  let yz := Scalar.double (q.y * q.z)
  let wx := Scalar.double (q.w * q.x)
  ⟨⟨ww + xx - yy - zz, xy - wz, wy + xz⟩,
   ⟨wz + xy, ww - xx + yy - zz, yz - wx⟩,
   ⟨xz - wy, wx + yz, ww - xx - yy + zz⟩⟩

/-- The unit quaternion of a rotation vector. -/
def exp (v : Vec3 α) : Quaternion α :=
  let half := v.divide (Scalar.double 1)
  let n := half.norm
  if n ≤ 0 then one else ofParts (Scalar.cos n) ((Scalar.sin n / n) • half)

/-- The rotation vector of a unit quaternion, of length at most π when `0 ≤ w`. -/
def log (q : Quaternion α) : Vec3 α :=
  let n := q.vector.norm
  if 0 < n then Scalar.double (Scalar.atan2 n q.w) • (q.vector.divide n) else 0

/-- The orientation after a roll about x, a pitch about y and a yaw about z, all of them about the
axes of the world. -/
def ofAngles (roll pitch yaw : α) : Quaternion α :=
  let half : α := Scalar.ofDecimal 5 1
  let sr := Scalar.sin (roll * half)
  let cr := Scalar.cos (roll * half)
  let sp := Scalar.sin (pitch * half)
  let cp := Scalar.cos (pitch * half)
  let sy := Scalar.sin (yaw * half)
  let cy := Scalar.cos (yaw * half)
  ⟨cr * cp * cy + sr * sp * sy, sr * cp * cy - cr * sp * sy, cr * sp * cy + sr * cp * sy,
    cr * cp * sy - sr * sp * cy⟩

/-- The entries `[w, x, y, z]`. -/
def toVec (q : Quaternion α) : Vec α := Vec.ofList [q.w, q.x, q.y, q.z]

/-- The four entries of a vector from index `start` on, scalar part first. -/
def ofVec (v : Vec α) (start : Nat) : Quaternion α :=
  ⟨v.entry start, v.entry (start + 1), v.entry (start + 2), v.entry (start + 3)⟩

/-- The unit quaternion in the direction of a vector `[w, x, y, z]`. There is none when the vector
has another length, when its norm is not finite or when it is too short to have a direction. -/
def ofSample? (v : Vec α) : Option (Quaternion α) :=
  if v.size = 4 then
    let q := ofVec v 0
    if Scalar.isFinite q.norm = true ∧ ¬ q.norm < Scalar.ofDecimal 1 9 then some q.normalize
    else none
  else none

end Quaternion

/-- The world-frame rotation vector that carries the orientation `actual` onto `desired` along the
shortest way: the logarithm of `desired * actual⁻¹`. A quaternion and its negative are the same
rotation; the one with a scalar part that is not negative turns by at most π. -/
def orientationError {α : Type} [Scalar α] (desired actual : Quaternion α) : Vec3 α :=
  let d := desired * actual.conj
  if d.w < 0 then (-d).log else d.log

end WholeBody
