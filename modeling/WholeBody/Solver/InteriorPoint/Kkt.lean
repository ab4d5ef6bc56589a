import WholeBody.Solver.InteriorPoint.Equilibration
import WholeBody.Solver.InteriorPoint.Factor

/-!
# Newton systems

Each step of the method solves systems with the matrix `[P, Aᵀ; A, -W²]`. The rows of the cones are
eliminated first: their part of the matrix is a block for each cone, and so what is left is a
quasidefinite matrix over the variables and the equality rows.

A small regularization of the diagonal keeps the factors stable. Solutions are then refined against
the matrix without it.
-/

namespace WholeBody.InteriorPoint

/-- The inverse of the regularized block of a cone with more than one row. -/
structure BlockInverse where
  slot : ConeSlot
  inverse : FloatArray

/-- A factored Newton system. -/
structure Kkt where
  program : Equilibrated
  scaling : Scaling
  regularization : Float
  /-- The rows of the zero cones. -/
  equalities : Array Nat
  blocks : List BlockInverse
  factored : Factor

/-- A part over the variables and a part over the constraint rows. -/
structure Pair where
  x : FloatArray
  z : FloatArray

namespace Kkt

/-- The rows of the zero cones. -/
def equalityRows (cones : Cones) : List Nat :=
  cones.flatMap fun c =>
    match c.kind with
    | .zero => List.range' c.start c.dim
    | _ => []

/-- The regularized block of a second-order cone, inverted column by column. -/
def invertBlock (sc : Scaling) (reg : Float) (c : ConeSlot) : BlockInverse :=
  let d := c.dim
  let block := tabulate (d * d) fun k =>
    let i := k / d
    let j := k % d
    squaredEntry c sc (c.start + i) (c.start + j) + (if i == j then reg else 0.0)
  let f := factor d d block
  let columns := (List.range d).map fun j =>
    f.solve (tabulate d fun i => if i == j then 1.0 else 0.0)
  { slot := c
    inverse := columns.foldl (fun acc col => tabulateFrom col.get! 0 d acc) FloatArray.empty }

def invertBlocks (cones : Cones) (sc : Scaling) (reg : Float) : List BlockInverse :=
  cones.filterMap fun c =>
    match c.kind with
    | .secondOrder => some (invertBlock sc reg c)
    | _ => none

/-- Adds `c` times the outer product of two rows to the lower triangle. -/
def addOuter (m : @& SparseRows) (size : Nat) (c : Float) (i j : Nat) (a : FloatArray) :
    FloatArray :=
  (List.range' (m.first i) (m.count i)).foldl (fun a k =>
    let row := m.column k
    let v := c * m.value.get! k
    (List.range' (m.first j) (m.count j)).foldl (fun a l =>
      let col := m.column l
      if col ≤ row then addTo a (row * size + col) (v * m.value.get! l) else a) a) a

/-- Adds row `i` of a matrix to row `place` of the lower triangle, up to column `place`. -/
def addRow (m : @& SparseRows) (size i place : Nat) (a : FloatArray) : FloatArray :=
  (List.range' (m.first i) (m.count i)).foldl (fun a k =>
    let col := m.column k
    if col ≤ place then addTo a (place * size + col) (m.value.get! k) else a) a

/-- The matrix over the variables and the equality rows. -/
def condense (p : Equilibrated) (sc : Scaling) (reg : Float) (equalities : Array Nat)
    (blocks : List BlockInverse) : FloatArray :=
  let n := p.q.size
  let size := n + equalities.size
  let a := tabulate (size * size) fun _ => 0.0
  let a := (List.range n).foldl (fun a i => addTo (addRow p.P size i i a) (i * size + i) reg) a
  let a := p.cones.foldl (fun a c =>
    match c.kind with
    | .nonnegative =>
      (List.range' c.start c.dim).foldl (fun a i =>
        addOuter p.A size (1.0 / (sc.w.get! i + reg)) i i a) a
    | _ => a) a
  let a := blocks.foldl (fun a b =>
    (List.range (b.slot.dim * b.slot.dim)).foldl (fun a k =>
      addOuter p.A size (b.inverse.get! k) (b.slot.start + k / b.slot.dim)
        (b.slot.start + k % b.slot.dim) a) a) a
  (List.range equalities.size).foldl (fun a k =>
    addTo (addRow p.A size (equalities.getD k 0) (n + k) a) ((n + k) * size + (n + k)) (-reg)) a

/-- Factors the system of a scaling. -/
def make (p : Equilibrated) (sc : Scaling) : Kkt :=
  let largest := maxFrom (fun i => (sumOf (p.P.first i) (p.P.count i) fun k =>
    if p.P.column k == i then p.P.value.get! k else 0.0).abs) 0 p.q.size 0.0
  let reg := 1.0e-8 + 4.930380657631324e-32 * largest
  let equalities := (equalityRows p.cones).toArray
  let blocks := invertBlocks p.cones sc reg
  let size := p.q.size + equalities.size
  { program := p
    scaling := sc
    regularization := reg
    equalities
    blocks
    factored := factor size p.q.size (condense p sc reg equalities blocks) }

/-- Divides by the regularized blocks of the cones. Rows of zero cones become zero. -/
def divideBlocks (k : Kkt) (v : FloatArray) : FloatArray :=
  let base := mapRows k.program.cones fun c i =>
    match c.kind with
    | .nonnegative => v.get! i / (k.scaling.w.get! i + k.regularization)
    | _ => 0.0
  k.blocks.foldl (fun out b =>
    (List.range b.slot.dim).foldl (fun out i =>
      out.set! (b.slot.start + i)
        (dotFrom b.inverse (i * b.slot.dim) v b.slot.start b.slot.dim 0.0)) out) base

/-- Solves the regularized system. -/
def solveOnce (k : Kkt) (rhs : Pair) : Pair :=
  let p := k.program
  let n := p.q.size
  let t := p.At.mulVec (k.divideBlocks rhs.z)
  let condensed := k.equalities.foldl (fun a i => a.push (rhs.z.get! i))
    (tabulate n fun j => rhs.x.get! j + t.get! j)
  let y := k.factored.solve condensed
  let x := tabulate n y.get!
  let ax := p.A.mulVec x
  let z := k.divideBlocks (tabulate rhs.z.size fun i => ax.get! i - rhs.z.get! i)
  let z := (List.range k.equalities.size).foldl
    (fun z e => z.set! (k.equalities.getD e 0) (y.get! (n + e))) z
  { x, z }

/-- The product of the matrix without regularization, subtracted from a right-hand side. -/
def residual (k : Kkt) (rhs v : Pair) : Pair :=
  let p := k.program
  let px := p.P.mulVec v.x
  let az := p.At.mulVec v.z
  let ax := p.A.mulVec v.x
  let hz := mulSquared p.cones k.scaling v.z
  { x := tabulate rhs.x.size fun j => rhs.x.get! j - px.get! j - az.get! j
    z := tabulate rhs.z.size fun i => rhs.z.get! i - ax.get! i + hz.get! i }

end Kkt

namespace Pair

def add (a b : Pair) : Pair where
  x := tabulate a.x.size fun j => a.x.get! j + b.x.get! j
  z := tabulate a.z.size fun i => a.z.get! i + b.z.get! i

def maxAbs (a : Pair) : Float :=
  let x := InteriorPoint.maxAbs a.x
  let z := InteriorPoint.maxAbs a.z
  if x < z then z else x

def allFinite (a : Pair) : Bool := InteriorPoint.allFinite a.x && InteriorPoint.allFinite a.z

end Pair

namespace Kkt

/-- Improves a solution until its error is small or stops shrinking by a factor of five. -/
def refineFrom (k : Kkt) (rhs : Pair) (bound : Float) : Nat → Pair → Pair → Option Pair
  | 0, v, _ => some v
  | fuel + 1, v, err =>
    let size := err.maxAbs
    if size ≤ bound then some v
    else
      let next := v.add (k.solveOnce err)
      let nextErr := k.residual rhs next
      if !nextErr.allFinite then none
      else
        let ratio := size / nextErr.maxAbs
        if ratio < 5.0 then if 1.0 < ratio then some next else some v
        else refineFrom k rhs bound fuel next nextErr

/-- Solves the system, if the numbers stay finite. -/
def solve? (k : Kkt) (rhs : Pair) : Option Pair :=
  let v := k.solveOnce rhs
  let err := k.residual rhs v
  if !err.allFinite then none
  else k.refineFrom rhs (1.0e-12 + 1.0e-13 * rhs.maxAbs) 10 v err

end Kkt

end WholeBody.InteriorPoint
