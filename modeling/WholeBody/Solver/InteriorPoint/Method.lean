import WholeBody.Scalar.Float
import WholeBody.Solver.Basic
import WholeBody.Solver.InteriorPoint.Progress

/-!
# The interior-point method

A primal-dual method for quadratic costs over products of zero, nonnegative and second-order cones.
It follows the central path of the homogeneous embedding: each iteration predicts how far the
residuals can be reduced, corrects for the curvature found on the way, and moves to within one
percent of the boundary of the cones. The number of iterations is limited, so a run always ends.
-/

namespace WholeBody.InteriorPoint

/-! ### Standard form -/

/-- Bounds of nonnegative rows from here on are as good as none. -/
def unbounded : Float := 1.0e20

/-- A constraint row: its entries and its bound. -/
structure Row where
  entries : List (Nat × Float)
  bound : Float

/-- Splits the rows among the cones, without those that bound nothing. A second-order cone of one
row is a nonnegative row. -/
def splitRows : List ConeBlock → List Row → List (ConeKind × List Row)
  | [], _ => []
  | c :: cones, rows =>
    let own := rows.take c.dim
    let rest := splitRows cones (rows.drop c.dim)
    let kind : ConeKind := if c.kind = .secondOrder ∧ c.dim = 1 then .nonnegative else c.kind
    let kept := if kind = .nonnegative then own.filter (·.bound < unbounded) else own
    if kept.isEmpty then rest else (kind, kept) :: rest

def slots : Nat → List (ConeKind × List Row) → Cones
  | _, [] => []
  | start, (kind, rows) :: rest =>
    { kind, start, dim := rows.length } :: slots (start + rows.length) rest

/-- The entries of both triangles of a symmetric matrix, column by column, from the upper one. -/
def mirrorColumns (n : Nat) (upper : List (List (Nat × Float))) : List (List (Nat × Float)) :=
  let below := SparseRows.transposeRows n upper
  upper.zipIdx.map fun c => c.1 ++ (below.getD c.2 []).filter (c.2 < ·.1)

/-- A program in standard form. -/
def Standard.ofProgram (p : ConeProgram Float) : Standard :=
  let n := p.q.size
  let columns := p.A.toSparse.columns
  let rows := (SparseRows.transposeRows p.b.size columns).zip p.b.toList
  let split := splitRows p.cones (rows.map fun r => ⟨r.1, r.2⟩)
  let kept := split.flatMap (·.2)
  let entries := kept.map (·.entries)
  { cones := slots 0 split
    P := .ofRows n (mirrorColumns n p.P.upperToSparse.columns)
    A := .ofRows n entries
    At := .ofRows kept.length (SparseRows.transposeRows n entries)
    q := ⟨p.q.entries⟩
    b := ⟨(kept.map (·.bound)).toArray⟩ }

/-! ### Steps -/

/-- Where a run stands between two iterations. -/
structure Run where
  program : Equilibrated
  budget : SolverBudget Float
  iterate : Iterate
  previous : Option (Iterate × Progress)
  iterations : Nat

/-- The point where the run starts: the solution of the system with the identity as its scaling,
moved into the cones. -/
def start? (p : Equilibrated) : Option Iterate :=
  let k := Kkt.make p (.identity p.cones)
  let zeros (n : Nat) : FloatArray := tabulate n fun _ => 0.0
  let n := p.q.size
  let m := p.b.size
  let negQ := tabulate n fun j => -(p.q.get! j)
  let negated (v : FloatArray) : FloatArray := tabulate m fun i => -(v.get! i)
  let interior (x s z : FloatArray) : Iterate :=
    { x, s := intoInterior p.cones true s, z := intoInterior p.cones false z, τ := 1.0, κ := 1.0 }
  if p.P.value.size = 0 then do
    let primal ← k.solve? { x := zeros n, z := p.b }
    let dual ← k.solve? { x := negQ, z := zeros m }
    return interior primal.x (negated primal.z) dual.z
  else do
    let v ← k.solve? { x := negQ, z := p.b }
    return interior v.x (negated v.z) v.z

/-- The right-hand side of a step. -/
structure StepTarget where
  x : FloatArray
  z : FloatArray
  /-- The constant of the linearized complementarity `Δs + W² Δz = -offset`. -/
  offset : FloatArray
  τ : Float
  κ : Float

/-- A factored system with its solution for the constant right-hand side `(-q, b)`. -/
structure StepSystem where
  kkt : Kkt
  constant : Pair

def StepSystem.make? (p : Equilibrated) (sc : Scaling) : Option StepSystem := do
  let kkt := Kkt.make p sc
  let constant ← kkt.solve? { x := tabulate p.q.size fun j => -(p.q.get! j), z := p.b }
  return { kkt, constant }

/-- The direction of a step. -/
def StepSystem.direction? (sys : StepSystem) (v : Iterate) (t : StepTarget) : Option Iterate := do
  let p := sys.kkt.program
  let n := v.x.size
  let m := v.z.size
  let a ← sys.kkt.solve?
    { x := t.x, z := tabulate m fun i => t.offset.get! i - t.z.get! i }
  let b := sys.constant
  let ξ := tabulate n fun j => v.x.get! j / v.τ
  let pa := p.P.mulVec a.x
  let num := t.τ - t.κ / v.τ + dot p.q a.x + dot p.b a.z + 2.0 * dot ξ pa
  let δ := tabulate n fun j => ξ.get! j - b.x.get! j
  let den := v.κ / v.τ - dot p.q b.x - dot p.b b.z + dot δ (p.P.mulVec δ)
    - dot b.x (p.P.mulVec b.x)
  let dτ := num / den
  let dz := tabulate m fun i => a.z.get! i + dτ * b.z.get! i
  let hz := mulSquared p.cones sys.kkt.scaling dz
  return {
    x := tabulate n fun j => a.x.get! j + dτ * b.x.get! j
    z := dz
    s := tabulate m fun i => -(hz.get! i) - t.offset.get! i
    τ := dτ
    κ := -(t.κ + v.κ * dτ) / v.τ }

/-- The longest step, at most one, along a direction. -/
def Iterate.longestStep (v dv : Iterate) (cones : Cones) : Float :=
  let limit (most x dx : Float) : Float :=
    if dx < 0.0 then let r := -x / dx; if r < most then r else most else most
  let most := limit (limit 1.0 v.τ dv.τ) v.κ dv.κ
  stepLength cones v.s dv.s (stepLength cones v.z dv.z most)

def Iterate.move (v dv : Iterate) (α : Float) : Iterate where
  x := tabulate v.x.size fun j => v.x.get! j + α * dv.x.get! j
  z := tabulate v.z.size fun i => v.z.get! i + α * dv.z.get! i
  s := tabulate v.s.size fun i => v.s.get! i + α * dv.s.get! i
  τ := v.τ + α * dv.τ
  κ := v.κ + α * dv.κ

/-- The step that aims at the solution itself. -/
def predictor (v : Iterate) (r : Residuals) (cones : Cones) : StepTarget where
  x := r.rx
  z := r.rz
  offset := mapRows cones fun c i =>
    match c.kind with
    | .zero => 0.0
    | _ => v.s.get! i
  τ := r.rτ
  κ := v.τ * v.κ

/-- The step that aims at the central path, with the products of the predicted step counted in to
the share `m`. -/
def corrector (v : Iterate) (r : Residuals) (cones : Cones) (sc : Scaling) (affine : Iterate)
    (σ μ m : Float) : StepTarget :=
  let wz := mulScaling cones sc (tabulate v.z.size fun i => m * affine.z.get! i)
  let ws := divScaling cones sc affine.s
  let cross := jordan cones ws wz
  let square := jordan cones sc.lam sc.lam
  let ds := subtractIdentity cones (σ * μ)
    (tabulate v.z.size fun i => square.get! i + cross.get! i)
  { x := tabulate v.x.size fun j => (1.0 - σ) * r.rx.get! j
    z := tabulate v.z.size fun i => (1.0 - σ) * r.rz.get! i
    offset := mulScaling cones sc (jordanDiv cones sc.lam ds)
    τ := (1.0 - σ) * r.rτ
    κ := -(σ * μ) + m * affine.τ * affine.κ + v.τ * v.κ }

/-- The mean complementarity of an iterate. -/
def centrality (v : Iterate) (r : Residuals) (cones : Cones) : Float :=
  (r.sz + v.τ * v.κ) / Float.ofNat (degree cones + 1)

/-! ### The run -/

/-- What a run returns: its status and its last iterate. -/
structure Outcome where
  status : Status
  iterate : Iterate

/-- The end of a run that could not go on. It still counts as almost solved when it meets the
reduced tolerances. -/
def giveUp (status : Status) (r : Residuals) (g : Progress) (v : Iterate) : Outcome :=
  match verdict? .reduced r g with
  | some verdict => ⟨verdict.almost, v⟩
  | none => ⟨status, v⟩

/-- Time is counted in readings of the clock, each of which takes a nanosecond, so that a run can be
repeated. -/
def elapsed (iterations : Nat) : Float := 1.0e-9 * Float.ofNat (iterations + 1)

/-- Whether a run ends before its next iteration, and how. -/
def Run.ending? (run : Run) (r : Residuals) (g : Progress) : Option Outcome :=
  let v := run.iterate
  match verdict? .full r g with
  | some verdict => some ⟨verdict.status, v⟩
  | none =>
    match run.previous with
    | some (old, before) =>
      if 1 < run.iterations && g.stalled before then
        some (giveUp .insufficientProgress r before old)
      else limits v
    | none => limits v
where
  limits (v : Iterate) : Option Outcome :=
    if run.iterations = run.budget.maxIterations then some (giveUp .maxIterations r g v)
    else if run.budget.timeLimit < elapsed run.iterations then some (giveUp .maxTime r g v)
    else none

/-- One iteration: the new iterate, or the reason why there is none. -/
def Run.step (run : Run) (r : Residuals) : Except Status Iterate :=
  let p := run.program
  let v := run.iterate
  match scaling? p.cones v.s v.z with
  | none => .error .numericalError
  | some sc =>
    let direction? : Option Iterate := do
      let sys ← StepSystem.make? p sc
      let affine ← sys.direction? v (predictor v r p.cones)
      let α := v.longestStep affine p.cones
      let σ := (1.0 - α) * (1.0 - α) * (1.0 - α)
      let m := if run.iterations = 0 then α else 1.0
      sys.direction? v (corrector v r p.cones sc affine σ (centrality v r p.cones) m)
    match direction? with
    | none => .error .numericalError
    | some dv =>
      let α := 0.99 * v.longestStep dv p.cones
      if α ≤ 1.0e-4 || α.isNaN then .error .insufficientProgress else .ok (v.move dv α)

/-- Iterates until the run ends. The fuel is one more than the iterations that are allowed. -/
def Run.loop : Nat → Run → Outcome
  | 0, run => ⟨.maxIterations, run.iterate⟩
  | fuel + 1, run =>
    let r := run.iterate.residuals run.program
    let g := r.progress run.program run.iterate
    match run.ending? r g with
    | some outcome => outcome
    | none =>
      match run.step r with
      | .error status => giveUp status r g run.iterate
      | .ok next =>
        Run.loop fuel { run with
          iterate := next
          previous := some (run.iterate, g)
          iterations := run.iterations + 1 }

/-- The point of an iterate in the variables of the program. -/
def Outcome.point (o : Outcome) (p : Equilibrated) : Vec Float :=
  .ofFn o.iterate.x.size fun j => p.d.get! j * o.iterate.x.get! j / o.iterate.τ

/-- Runs the method on a program. -/
def run (p : ConeProgram Float) (budget : SolverBudget Float) : Except SolverError (Vec Float) :=
  let program := (Standard.ofProgram p).equilibrate
  match start? program with
  | none => .error (.notConverged Status.numericalError.name)
  | some v =>
    let outcome := Run.loop (budget.maxIterations + 1)
      { program, budget, iterate := v, previous := none, iterations := 0 }
    match outcome.status with
    | .solved | .almostSolved =>
      let x := outcome.point program
      if x.allFinite then .ok x else .error .nonFinite
    | status => .error (.notConverged status.name)

/-- What a program must satisfy to be set up: matching sizes. -/
def setupFault? (p : ConeProgram Float) : Option String :=
  if p.A.rows ≠ p.b.size then some "A and b differ in rows"
  else if coneRows p.cones ≠ p.b.size then some "cones and b differ in rows"
  else if p.A.cols ≠ p.q.size then some "A and q differ in variables"
  else if p.P.cols ≠ p.q.size then some "P and q differ in variables"
  else if p.P.rows ≠ p.P.cols then some "P is not square"
  else none

/-- The interior-point method as a solver. It has no state. -/
def solver : Solver Unit Float where
  supportsSecondOrderCones := true
  solve _ p budget :=
    match setupFault? p with
    | some reason => (.error (.setup reason), ())
    | none => (run p budget, ())

end WholeBody.InteriorPoint
