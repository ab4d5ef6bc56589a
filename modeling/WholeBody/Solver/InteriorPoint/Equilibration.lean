import WholeBody.Solver.InteriorPoint.Cones
import WholeBody.Solver.InteriorPoint.SparseRows

/-!
# Equilibration

Before it is solved, a program is scaled so that the rows and columns of its data have largest
entries near one. The constraint rows of one second-order cone share a factor, because other factors
would change the cone.
-/

namespace WholeBody.InteriorPoint

/-- A program in the form that the method works on: `minimize ½ xᵀ P x + qᵀ x` subject to
`A x + s = b` with `s` in the cones. -/
structure Standard where
  cones : Cones
  /-- Both triangles of the Hessian. -/
  P : SparseRows
  A : SparseRows
  At : SparseRows
  q : FloatArray
  b : FloatArray

/-- A program scaled by factors `d` of the variables, `e` of the constraint rows and `c` of the
cost. -/
structure Equilibrated extends Standard where
  d : FloatArray
  e : FloatArray
  c : Float
  /-- Largest entries of `q` and `b` before scaling. -/
  normQ : Float
  normB : Float

/-- The factors of the variables, the rows and the cost. -/
structure Factors where
  d : FloatArray
  e : FloatArray
  c : Float

/-- Keeps the product of a factor and a correction between 1e-4 and 1e4. -/
def bounded (correction factor : Float) : Float :=
  let least := 1.0e-4 / factor
  let most := 1.0e4 / factor
  if correction < least then least else if most < correction then most else correction

/-- The correction that brings a norm to one. A norm of zero needs none. -/
def correction (norm factor : Float) : Float :=
  bounded (if norm == 0.0 then 1.0 else 1.0 / norm.sqrt) factor

/-- Largest entry of a row under factors of the columns. -/
def rowNorm (m : SparseRows) (i : Nat) (right : FloatArray) : Float :=
  maxAbsOf (m.first i) (m.count i) fun k => m.value.get! k * right.get! (m.column k)

/-- One pass over rows, columns and the cost. -/
def Standard.refine (p : Standard) (f : Factors) : Factors :=
  let n := p.q.size
  let d := tabulate n fun j =>
    let fj := f.d.get! j
    let hessian := f.c * fj * rowNorm p.P j f.d
    let columns := fj * rowNorm p.At j f.e
    fj * correction (if hessian < columns then columns else hessian) fj
  let e := tabulate p.b.size fun i =>
    let fi := f.e.get! i
    fi * correction (fi * rowNorm p.A i f.d) fi
  let mean := (sumOf 0 n fun j => f.c * d.get! j * rowNorm p.P j d) / Float.ofNat n
  let linear := f.c * maxAbsOf 0 n fun j => d.get! j * p.q.get! j
  let c :=
    if mean == 0.0 || linear == 0.0 then f.c
    else f.c * bounded (1.0 / (if mean < linear then linear else mean)) f.c
  { d, e, c }

def Standard.refineTimes (p : Standard) : Nat → Factors → Factors
  | 0, f => f
  | k + 1, f => p.refineTimes k (p.refine f)

/-- Ten passes, and then one factor for each second-order cone. -/
def Standard.equilibrate (p : Standard) : Equilibrated :=
  let ones (n : Nat) : FloatArray := tabulate n fun _ => 1.0
  let f := p.refineTimes 10 { d := ones p.q.size, e := ones p.b.size, c := 1.0 }
  let e := mapRows p.cones fun c i =>
    match c.kind with
    | .secondOrder => (sumOf c.start c.dim f.e.get!) / Float.ofNat c.dim
    | _ => f.e.get! i
  { cones := p.cones
    P := p.P.scale f.d f.d f.c
    A := p.A.scale e f.d 1.0
    At := p.At.scale f.d e 1.0
    q := tabulate p.q.size fun j => f.c * f.d.get! j * p.q.get! j
    b := tabulate p.b.size fun i => e.get! i * p.b.get! i
    d := f.d
    e
    c := f.c
    normQ := maxAbs p.q
    normB := maxAbs p.b }

end WholeBody.InteriorPoint
