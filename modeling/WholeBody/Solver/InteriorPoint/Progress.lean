import WholeBody.Solver.InteriorPoint.Kkt

/-!
# Progress and termination

An iterate of the homogeneous embedding carries, beside `x`, `z` and `s`, two numbers `τ` and `κ`.
The point `x/τ` approaches a solution while `κ/τ` tends to zero; when `κ/τ` grows without bound,
the iterate approaches a certificate that there is none. This module measures how far an iterate
has come, in the units of the program before its equilibration, and decides when to stop.
-/

namespace WholeBody.InteriorPoint

/-- How a solve ends. -/
inductive Status where
  | solved
  | primalInfeasible
  | dualInfeasible
  | almostSolved
  | almostPrimalInfeasible
  | almostDualInfeasible
  | maxIterations
  | maxTime
  | numericalError
  | insufficientProgress
deriving DecidableEq

def Status.name : Status → String
  | solved => "Solved"
  | primalInfeasible => "PrimalInfeasible"
  | dualInfeasible => "DualInfeasible"
  | almostSolved => "AlmostSolved"
  | almostPrimalInfeasible => "AlmostPrimalInfeasible"
  | almostDualInfeasible => "AlmostDualInfeasible"
  | maxIterations => "MaxIterations"
  | maxTime => "MaxTime"
  | numericalError => "NumericalError"
  | insufficientProgress => "InsufficientProgress"

/-- A point of the homogeneous embedding, or a direction there. -/
structure Iterate where
  x : FloatArray
  z : FloatArray
  s : FloatArray
  τ : Float
  κ : Float

/-- The residuals of an iterate, with the products that they are made of. -/
structure Residuals where
  rx : FloatArray
  rz : FloatArray
  rτ : Float
  /-- `-Aᵀ z`. -/
  certX : FloatArray
  /-- `A x + s`. -/
  certZ : FloatArray
  px : FloatArray
  qx : Float
  bz : Float
  sz : Float
  xPx : Float

def Iterate.residuals (v : Iterate) (p : Equilibrated) : Residuals :=
  let px := p.P.mulVec v.x
  let atz := p.At.mulVec v.z
  let ax := p.A.mulVec v.x
  let certX := tabulate v.x.size fun j => -(atz.get! j)
  let certZ := tabulate v.z.size fun i => v.s.get! i + ax.get! i
  let qx := dot p.q v.x
  let bz := dot p.b v.z
  let xPx := dot v.x px
  { rx := tabulate v.x.size fun j => -(px.get! j) - v.τ * p.q.get! j + certX.get! j
    rz := tabulate v.z.size fun i => certZ.get! i - v.τ * p.b.get! i
    rτ := qx + bz + v.κ + xPx / v.τ
    certX, certZ, px, qx, bz, sz := dot v.s v.z, xPx }

/-- How far an iterate has come. -/
structure Progress where
  primalResidual : Float
  dualResidual : Float
  primalCertificate : Float
  dualCertificate : Float
  gap : Float
  relativeGap : Float
  ratio : Float

def atLeastOne (x : Float) : Float := if 1.0 < x then x else 1.0

def reciprocals (v : FloatArray) : FloatArray := tabulate v.size fun i => 1.0 / v.get! i

/-- The measures of an iterate, without the scaling of the program. -/
def Residuals.progress (r : Residuals) (p : Equilibrated) (v : Iterate) : Progress :=
  let dInv := reciprocals p.d
  let eInv := reciprocals p.e
  let half := r.xPx / (v.τ * v.τ) / 2.0
  let primal := (r.qx / v.τ + half) / p.c
  let dual := (-r.bz / v.τ - half) / p.c
  let nx := normScaled v.x p.d
  let nz := normScaled v.z p.e / p.c
  let ns := normScaled v.s eInv
  let dualX := normScaled r.px dInv / atLeastOne nx
  let dualZ := normScaled r.certZ eInv / atLeastOne (nx + ns)
  let gap := (primal - dual).abs
  let smaller := if primal.abs < dual.abs then primal.abs else dual.abs
  { primalResidual :=
      normScaled r.rz eInv / v.τ / atLeastOne (p.normB + (nx + ns) / v.τ)
    dualResidual :=
      normScaled r.rx dInv / p.c / v.τ / atLeastOne (p.normQ + (nx + nz) / v.τ)
    primalCertificate := normScaled r.certX dInv / p.c / atLeastOne nz
    dualCertificate := if dualX < dualZ then dualZ else dualX
    gap
    relativeGap := gap / atLeastOne smaller
    ratio := v.κ / v.τ }

/-- What counts as small enough. -/
structure Tolerances where
  gap : Float
  residual : Float
  certificate : Float
  ratio : Float

def Tolerances.full : Tolerances :=
  { gap := 1.0e-8, residual := 1.0e-8, certificate := 1.0e-8, ratio := 1.0e-6 }

/-- Tolerances for a run that had to stop early. -/
def Tolerances.reduced : Tolerances :=
  { gap := 5.0e-5, residual := 1.0e-4, certificate := 5.0e-5, ratio := 1.0e-4 }

/-- The three ways in which a run can succeed: solved, or with a certificate that the constraints
or the dual constraints cannot be met. -/
inductive Verdict where
  | solved
  | primalInfeasible
  | dualInfeasible

def verdict? (t : Tolerances) (r : Residuals) (g : Progress) : Option Verdict :=
  if g.ratio < 1.0 && (g.gap < t.gap || g.relativeGap < t.gap)
      && g.primalResidual < t.residual && g.dualResidual < t.residual then some .solved
  else if g.ratio > 1000.0 / t.ratio then
    if r.bz < -t.certificate && g.primalCertificate < -t.certificate * r.bz then
      some .primalInfeasible
    else if r.qx < -t.certificate && g.dualCertificate < -t.certificate * r.qx then
      some .dualInfeasible
    else none
  else none

def Verdict.status : Verdict → Status
  | solved => .solved
  | primalInfeasible => .primalInfeasible
  | dualInfeasible => .dualInfeasible

def Verdict.almost : Verdict → Status
  | solved => .almostSolved
  | primalInfeasible => .almostPrimalInfeasible
  | dualInfeasible => .almostDualInfeasible

/-- Whether the run has stalled or is going backwards. -/
def Progress.stalled (g previous : Progress) : Bool :=
  let t := Tolerances.full
  (previous.dualResidual < g.dualResidual || previous.primalResidual < g.primalResidual) &&
    ((g.ratio < 2.220446049250313e-14
        && (previous.gap < t.gap || previous.relativeGap < t.gap)) ||
      (t.residual < g.dualResidual && previous.dualResidual * 100.0 < g.dualResidual) ||
      (t.residual < g.primalResidual && previous.primalResidual * 100.0 < g.primalResidual))

end WholeBody.InteriorPoint
