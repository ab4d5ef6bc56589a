import WholeBody.Program.Cone
import WholeBody.Solver.InteriorPoint.Buffer

/-!
# Cones of the interior-point method

The operations that the method needs on a product of zero, nonnegative and second-order cones: how
far a vector is inside, the Nesterov–Todd scaling of an interior pair, the products of the Jordan
algebra, and the longest step that stays inside.

The scaling point of a pair `(s, z)` is a symmetric matrix `W` with `W z = W⁻¹ s = λ`. On a
nonnegative row it is the number `√(s/z)`; on a second-order cone it is `η` times a hyperbolic
rotation given by a vector `w` with `w₀² - ‖w₁‖² = 1`. A zero cone has no interior and no scaling.
-/

namespace WholeBody.InteriorPoint

/-- The rows of one cone. -/
structure ConeSlot where
  kind : ConeKind
  start : Nat
  dim : Nat

/-- A cone per slot, in row order from row 0 on. -/
abbrev Cones := List ConeSlot

namespace ConeSlot

/-- The inner product of two vectors over the rows after the first. -/
def tailDot (c : ConeSlot) (a b : FloatArray) : Float :=
  dotFrom a (c.start + 1) b (c.start + 1) (c.dim - 1) 0.0

def tailNorm (c : ConeSlot) (a : FloatArray) : Float := (c.tailDot a a).sqrt

/-- `a₀² - ‖a₁‖²`, without cancellation of squares. -/
def lorentz (c : ConeSlot) (a : FloatArray) : Float :=
  let t := c.tailNorm a
  (a.get! c.start - t) * (a.get! c.start + t)

end ConeSlot

/-- The vector with the entry `f c i` in row `i` of cone `c`. -/
@[specialize] def mapRows (cones : Cones) (f : ConeSlot → Nat → Float) : FloatArray :=
  cones.foldl (fun out c => tabulateFrom (f c) c.start c.dim out) FloatArray.empty

/-- Number of barrier terms. -/
def degree (cones : Cones) : Nat :=
  cones.foldl (fun n c =>
    match c.kind with
    | .zero => n
    | .nonnegative => n + c.dim
    | .secondOrder => n + 1) 0

/-! ### Interior points -/

/-- The least distance of a vector to the boundary, negative outside, and the sum of the positive
ones. -/
def margins (cones : Cones) (v : FloatArray) : Float × Float :=
  let add (acc : Float × Float) (m : Float) : Float × Float :=
    (if m < acc.1 then m else acc.1, if 0.0 < m then acc.2 + m else acc.2)
  cones.foldl (fun acc c =>
    match c.kind with
    | .zero => acc
    | .nonnegative =>
      (List.range c.dim).foldl (fun acc i => add acc (v.get! (c.start + i))) acc
    | .secondOrder => add acc (v.get! c.start - c.tailNorm v)) (1.0 / 0.0, 0.0)

/-- Adds a multiple of the identity of the algebra. Rows of zero cones become zero in the primal
vector and stay in the dual one. -/
def shift (cones : Cones) (primal : Bool) (amount : Float) (v : FloatArray) : FloatArray :=
  mapRows cones fun c i =>
    match c.kind with
    | .zero => if primal then 0.0 else v.get! i
    | .nonnegative => v.get! i + amount
    | .secondOrder => if i == c.start then v.get! i + amount else v.get! i

/-- Moves a vector well into the cones, when it is not there already. -/
def intoInterior (cones : Cones) (primal : Bool) (v : FloatArray) : FloatArray :=
  let (least, positive) := margins cones v
  let mean := 0.1 * positive / Float.ofNat (degree cones)
  let target := if 1.0 < mean then mean else 1.0
  if least ≤ 0.0 then shift cones primal target (shift cones primal (-least) v)
  else if least < target then shift cones primal (target - least) v
  else shift cones primal 0.0 v

/-! ### Scaling -/

/-- The scaling of an interior pair: the number `s/z` on nonnegative rows and the vector `w` on
second-order cones, the factor `η` at the first row of each second-order cone, and `λ`. -/
structure Scaling where
  w : FloatArray
  η : FloatArray
  lam : FloatArray

/-- The scaling with which all products are those of the identity. -/
def Scaling.identity (cones : Cones) : Scaling :=
  let unit := mapRows cones fun c i =>
    match c.kind with
    | .zero => 0.0
    | .nonnegative => 1.0
    | .secondOrder => if i == c.start then 1.0 else 0.0
  { w := unit, η := mapRows cones fun _ _ => 1.0, lam := unit }

/-- `w`, `η` and `λ` of one second-order cone, if both vectors are inside. -/
def secondOrderScaling (c : ConeSlot) (s z : FloatArray) :
    Option (Float × List Float × List Float) :=
  let ss := c.lorentz s
  let zz := c.lorentz z
  if !(0.0 < ss && 0.0 < zz) then none
  else
    let sn := ss.sqrt
    let zn := zz.sqrt
    let s0 := s.get! c.start / sn
    let z0 := z.get! c.start / zn
    let tail := (List.range (c.dim - 1)).map fun k =>
      s.get! (c.start + 1 + k) / sn - z.get! (c.start + 1 + k) / zn
    let norm (xs : List Float) : Float := (xs.foldl (fun acc x => acc + x * x) 0.0).sqrt
    let head := s0 + z0
    let t := norm tail
    let ww := (head - t) * (head + t)
    if !(0.0 < ww) then none
    else
      let wn := ww.sqrt
      let tail := tail.map (· / wn)
      let t := norm tail
      let γ := 0.5 * wn
      let coef := 1.0 / (s0 + z0 + 2.0 * γ)
      let c1 := (γ + z0) / sn
      let c2 := (γ + s0) / zn
      let size := (sn * zn).sqrt
      let lamTail := (List.range (c.dim - 1)).map fun k =>
        size * coef * (c1 * s.get! (c.start + 1 + k) + c2 * z.get! (c.start + 1 + k))
      some ((sn / zn).sqrt, (1.0 + t * t).sqrt :: tail, size * γ :: lamTail)

def pushAll (a : FloatArray) (xs : List Float) : FloatArray := xs.foldl FloatArray.push a

/-- The scaling of a pair of vectors, if both are inside the cones. -/
def scaling? (cones : Cones) (s z : FloatArray) : Option Scaling :=
  cones.foldlM (fun acc c =>
    match c.kind with
    | .zero =>
      let pad := List.replicate c.dim 0.0
      some { w := pushAll acc.w pad, η := pushAll acc.η pad, lam := pushAll acc.lam pad }
    | .nonnegative =>
      some {
        w := tabulateFrom (fun i => s.get! i / z.get! i) c.start c.dim acc.w
        η := pushAll acc.η (List.replicate c.dim 1.0)
        lam := tabulateFrom (fun i => (s.get! i * z.get! i).sqrt) c.start c.dim acc.lam }
    | .secondOrder =>
      (secondOrderScaling c s z).map fun r =>
        { w := pushAll acc.w r.2.1
          η := pushAll acc.η (List.replicate c.dim r.1)
          lam := pushAll acc.lam r.2.2 })
    { w := FloatArray.empty, η := FloatArray.empty, lam := FloatArray.empty }

/-- Row `i` of the product of `W` with a vector on a second-order cone, or with `W⁻¹` when the sign
is `-1`. -/
def hyperbolicRow (c : ConeSlot) (sc : Scaling) (sign : Float) (v : FloatArray) (i : Nat) : Float :=
  let η := sc.η.get! c.start
  let size := if sign < 0.0 then 1.0 / η else η
  let w0 := sc.w.get! c.start
  let v0 := v.get! c.start
  let wv := c.tailDot sc.w v
  if i == c.start then size * (w0 * v0 + sign * wv)
  else size * (v.get! i + (sign * v0 + wv / (1.0 + w0)) * sc.w.get! i)

/-- `W v`. -/
def mulScaling (cones : Cones) (sc : Scaling) (v : FloatArray) : FloatArray :=
  mapRows cones fun c i =>
    match c.kind with
    | .zero => 0.0
    | .nonnegative => (sc.w.get! i).sqrt * v.get! i
    | .secondOrder => hyperbolicRow c sc 1.0 v i

/-- `W⁻¹ v`. -/
def divScaling (cones : Cones) (sc : Scaling) (v : FloatArray) : FloatArray :=
  mapRows cones fun c i =>
    match c.kind with
    | .zero => 0.0
    | .nonnegative => v.get! i / (sc.w.get! i).sqrt
    | .secondOrder => hyperbolicRow c sc (-1.0) v i

/-- `W² v`. -/
def mulSquared (cones : Cones) (sc : Scaling) (v : FloatArray) : FloatArray :=
  mapRows cones fun c i =>
    match c.kind with
    | .zero => 0.0
    | .nonnegative => sc.w.get! i * v.get! i
    | .secondOrder =>
      let η := sc.η.get! c.start
      let wv := sc.w.get! c.start * v.get! c.start + c.tailDot sc.w v
      let reflected := if i == c.start then v.get! i else -v.get! i
      η * η * (2.0 * wv * sc.w.get! i - reflected)

/-- Entry `(i, j)` of `W²` on a second-order cone, by rows of the whole product. -/
def squaredEntry (c : ConeSlot) (sc : Scaling) (i j : Nat) : Float :=
  let η := sc.η.get! c.start
  let reflected := if i == j then if i == c.start then 1.0 else -1.0 else 0.0
  η * η * (2.0 * sc.w.get! i * sc.w.get! j - reflected)

/-! ### Products of the Jordan algebra -/

/-- `a ∘ b`. -/
def jordan (cones : Cones) (a b : FloatArray) : FloatArray :=
  mapRows cones fun c i =>
    match c.kind with
    | .zero => 0.0
    | .nonnegative => a.get! i * b.get! i
    | .secondOrder =>
      let a0 := a.get! c.start
      let b0 := b.get! c.start
      if i == c.start then a0 * b0 + c.tailDot a b else a0 * b.get! i + b0 * a.get! i

/-- The vector `x` with `a ∘ x = b`. -/
def jordanDiv (cones : Cones) (a b : FloatArray) : FloatArray :=
  mapRows cones fun c i =>
    match c.kind with
    | .zero => 0.0
    | .nonnegative => b.get! i / a.get! i
    | .secondOrder =>
      let a0 := a.get! c.start
      let b0 := b.get! c.start
      let ab := c.tailDot a b
      let p := c.lorentz a
      if i == c.start then (a0 * b0 - ab) / p
      else ((ab / a0 - b0) * a.get! i) / p + b.get! i / a0

/-- Subtracts a multiple of the identity of the algebra. -/
def subtractIdentity (cones : Cones) (amount : Float) (v : FloatArray) : FloatArray :=
  mapRows cones fun c i =>
    match c.kind with
    | .zero => 0.0
    | .nonnegative => v.get! i - amount
    | .secondOrder => if i == c.start then v.get! i - amount else v.get! i

/-! ### Step lengths -/

/-- The longest step up to `most` from `x` along `dx` in a second-order cone: the least positive
root of the quadratic that vanishes on the boundary. -/
def secondOrderStep (c : ConeSlot) (x dx : FloatArray) (most : Float) : Float :=
  let quad := c.lorentz dx
  let linear := 2.0 * (x.get! c.start * dx.get! c.start - c.tailDot x dx)
  let const := let r := c.lorentz x; if r < 0.0 then 0.0 else r
  let disc := linear * linear - 4.0 * quad * const
  if (0.0 < quad && 0.0 < linear) || disc < 0.0 then most
  else if const == 0.0 then if 0.0 ≤ quad then most else 0.0
  else
    let t := if 0.0 ≤ linear then -linear - disc.sqrt else -linear + disc.sqrt
    let positive (r : Float) : Float := if r < 0.0 || r.isNaN then 1.0 / 0.0 else r
    let r1 := positive (2.0 * const / t)
    let r2 := positive (t / (2.0 * quad))
    let r := if r1 < r2 then r1 else r2
    if r < most then r else most

/-- The longest step up to `most` from `v` along `dv` in all cones. -/
def stepLength (cones : Cones) (v dv : FloatArray) (most : Float) : Float :=
  cones.foldl (fun most c =>
    match c.kind with
    | .zero => most
    | .nonnegative =>
      (List.range c.dim).foldl (fun most k =>
        let d := dv.get! (c.start + k)
        if d < 0.0 then
          let r := -(v.get! (c.start + k)) / d
          if r < most then r else most
        else most) most
    | .secondOrder => secondOrderStep c v dv most) most

end WholeBody.InteriorPoint
