import WholeBody.Solver.InteriorPoint.Buffer

/-!
# Factors of quasidefinite matrices

`L D Lᵀ` of a symmetric matrix of which a leading block is positive definite and the rest negative
definite. Such a matrix has this factorization in every order, so no pivot is searched for; a pivot
that rounding has made too small or of the wrong sign is replaced.
-/

namespace WholeBody.InteriorPoint

/-- A unit lower triangle, row by row in an `n × n` buffer, and the pivots. -/
structure Factor where
  n : Nat
  lower : FloatArray
  pivots : FloatArray

/-- Replaces the entries of row `i` from column `j` on: each becomes itself minus the product of the
row so far with row `j` of the triangle. -/
def reduceRow (n i : Nat) : Nat → Nat → FloatArray → FloatArray
  | _, 0, a => a
  | j, k + 1, a =>
    let at_ := i * n + j
    let v := a.get! at_ - dotFrom a (i * n) a (j * n) j 0.0
    reduceRow n i (j + 1) k (a.set! at_ v)

/-- Divides the entries of row `i` from column `j` on by their pivots, and subtracts the products
from the diagonal entry. -/
def divideRow (n i : Nat) (pivots : @& FloatArray) :
    Nat → Nat → Float → FloatArray → Float × FloatArray
  | _, 0, diag, a => (diag, a)
  | j, k + 1, diag, a =>
    let v := a.get! (i * n + j)
    let l := v / pivots.get! j
    divideRow n i pivots (j + 1) k (diag - v * l) (a.set! (i * n + j) l)

/-- A pivot of at least 1e-13 in the direction of its sign. -/
def guardPivot (sign pivot : Float) : Float :=
  if sign * pivot < 1.0e-13 || pivot.isNaN then sign * 2.0e-7 else pivot

def factorFrom (n positive : Nat) : Nat → Nat → FloatArray → FloatArray → Factor
  | _, 0, a, pivots => { n, lower := a, pivots }
  | i, k + 1, a, pivots =>
    let a := reduceRow n i 0 i a
    let (diag, a) := divideRow n i pivots 0 i (a.get! (i * n + i)) a
    let sign : Float := if i < positive then 1.0 else -1.0
    factorFrom n positive (i + 1) k a (pivots.push (guardPivot sign diag))

/-- The factors of a matrix whose lower triangle is given row by row, with `positive` positive
pivots before the negative ones. -/
def factor (n positive : Nat) (a : FloatArray) : Factor :=
  factorFrom n positive 0 n a (FloatArray.emptyWithCapacity n)

namespace Factor

def forward (f : @& Factor) : Nat → Nat → FloatArray → FloatArray
  | _, 0, x => x
  | i, k + 1, x =>
    let v := x.get! i - dotFrom f.lower (i * f.n) x 0 i 0.0
    forward f (i + 1) k (x.set! i v)

def divide (f : @& Factor) : Nat → Nat → FloatArray → FloatArray
  | _, 0, x => x
  | i, k + 1, x => divide f (i + 1) k (x.set! i (x.get! i / f.pivots.get! i))

def backward (f : @& Factor) : Nat → FloatArray → FloatArray
  | 0, x => x
  | i + 1, x =>
    let v := x.get! i
    backward f i (subtractFrom v f.lower (i * f.n) 0 i x)

/-- Solves the system of the factored matrix. -/
def solve (f : Factor) (rhs : FloatArray) : FloatArray :=
  f.backward f.n (f.divide 0 f.n (f.forward 0 f.n rhs))

end Factor

end WholeBody.InteriorPoint
