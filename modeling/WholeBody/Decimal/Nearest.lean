import WholeBody.Decimal.Rounding

/-!
# The float nearest to a decimal

Decimal text denotes an exact number, and a float stands for the reals that round to it. The nearest
float is found in natural numbers; of two equally near ones it is the one with an even mantissa.

A float that is not negative is `m * 2 ^ q` with `-1074 ≤ q` and `m < 2 ^ 53`, where `m` is at
least `2 ^ 52` unless `q = -1074`. Its bits are `(q + 1074) * 2 ^ 52 + m`, and the bits of the next
float are one more, also when `m` reaches `2 ^ 53`.
-/

namespace WholeBody.Decimal

/-- Bits of infinity, which also stand for every number that is too large for a float. -/
def infinityBits : Nat := (Nat.pow 2 11 - 1) * Nat.pow 2 52

/-- The ratio in units of `2 ^ unit`, as a numerator and a denominator. -/
def inBinaryUnits (num den : Nat) (unit : Int) : Nat × Nat :=
  (num * Nat.pow 2 (-unit).toNat, den * Nat.pow 2 unit.toNat)

/-- The exponent of the mantissa for `num / den`: the one that makes it at least `2 ^ 52` and less
than `2 ^ 53`, and never below the exponent of the numbers next to zero. -/
def mantissaExponent (num den : Nat) : Int :=
  let guess : Int := (num.log2 : Int) - den.log2 - 52
  let scaled := inBinaryUnits num den guess
  let q := if scaled.1 < Binary.powerMantissa * scaled.2 then guess - 1 else guess
  if q < Binary.leastExponent then Binary.leastExponent else q

/-- Bits of the float nearest to `num / den`. -/
def nearestBits (num den : Nat) : Nat :=
  if num = 0 then 0
  else
    let q := mantissaExponent num den
    let scaled := inBinaryUnits num den q
    let bits := (q - Binary.leastExponent).toNat * Binary.powerMantissa + roundDiv scaled.1 scaled.2
    if infinityBits < bits then infinityBits else bits

/-- Bits of the float nearest to `digits * 10 ^ exponent`. Powers of ten far outside the range of
floats are not computed. -/
def decimalBits (digits : Nat) (exponent : Int) : Nat :=
  if digits = 0 then 0
  else
    let top := (digitCount digits : Int) + exponent
    if 310 < top then infinityBits
    else if top < -330 then 0
    else
      let scaled := inUnits digits 1 (-exponent)
      nearestBits scaled.1 scaled.2

def ofMagnitude (negative : Bool) (bits : Nat) : Float :=
  Float.ofBits ((if negative then Binary.signBit else 0) + bits).toUInt64

/-- The float nearest to the decimal `± digits * 10 ^ exponent`. -/
def nearest (negative : Bool) (digits : Nat) (exponent : Int) : Float :=
  ofMagnitude negative (decimalBits digits exponent)

def nearestInt (n : Int) : Float := nearest (n < 0) n.natAbs 0

/-- The float nearest to the first `count` significant digits of a float. -/
def toSignificant (count : Nat) (x : Float) : Float :=
  match Binary.ofFloat? x with
  | none => x
  | some b =>
    if b.mantissa = 0 then x
    else
      let rounded := significant count b.ratio.1 b.ratio.2
      nearest b.negative rounded.1 (rounded.2 - (count - 1 : Nat))

end WholeBody.Decimal
