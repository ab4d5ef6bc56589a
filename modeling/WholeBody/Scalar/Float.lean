import WholeBody.Decimal.Nearest
import WholeBody.Linear.Spectrum

/-!
# Machine floats as scalars

The scalars of a running controller. `max` and `min` ignore an operand that is not a number, and
`hypot` scales its operands so that no square overflows or vanishes.
-/

namespace WholeBody.FloatScalar

def maxNum (a b : Float) : Float :=
  if a.isNaN then b else if b.isNaN then a else if a < b then b else a

def minNum (a b : Float) : Float :=
  if a.isNaN then b else if b.isNaN then a else if b < a then b else a

/-- Infinite when an operand is infinite, whatever the other one is. -/
def hypot (x y : Float) : Float :=
  let a := x.abs
  let b := y.abs
  if a.isInf || b.isInf then 1.0 / 0.0
  else
    let m := if a < b then b else a
    if m == 0.0 && !(a.isNaN || b.isNaN) then 0.0
    else
      let u := a / m
      let v := b / m
      m * (u * u + v * v).sqrt

instance : Scalar Float where
  toNatCast := ⟨Float.ofNat⟩
  ofDecimal m k := Decimal.nearest false m (-(k : Int))
  pi := 3.14159265358979323846
  sqrt := Float.sqrt
  sin := Float.sin
  cos := Float.cos
  abs := Float.abs
  atan2 := Float.atan2
  hypot := hypot
  max := maxNum
  min := minNum
  isFinite := Float.isFinite
  decidableLT := inferInstance
  decidableLE := inferInstance

instance : Spectrum Float := ⟨Jacobi.leastEigenvalue⟩

end WholeBody.FloatScalar
