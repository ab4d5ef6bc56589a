/-!
# The exact value of a machine float

A finite float is a sign and a magnitude `mantissa * 2 ^ exponent`. Decimal text is computed from
this magnitude in natural numbers, so no digit depends on a rounding error.
-/

namespace WholeBody.Decimal

/-- A sign and a magnitude `mantissa * 2 ^ exponent`. -/
structure Binary where
  negative : Bool
  mantissa : Nat
  exponent : Int

namespace Binary

/-- Exponent of the numbers next to zero. -/
def leastExponent : Int := -1074

/-- Mantissa at which the gap below a number is half of the gap above it. -/
def powerMantissa : Nat := Nat.pow 2 52

/-- The bit of the sign. -/
def signBit : Nat := Nat.pow 2 63

/-- The sign bit of a float, that of a zero included. -/
def signOf (x : Float) : Bool := x.toBits.toNat / signBit = 1

/-- `none` when the float is infinite or not a number. -/
def ofFloat? (x : Float) : Option Binary :=
  let bits := x.toBits.toNat
  let field := bits / powerMantissa % Nat.pow 2 11
  let fraction := bits % powerMantissa
  if field = Nat.pow 2 11 - 1 then none
  else if field = 0 then some ⟨signOf x, fraction, leastExponent⟩
  else some ⟨signOf x, powerMantissa + fraction, leastExponent + (field - 1 : Nat)⟩

/-- The factor `2 ^ exponent` as a numerator and a denominator. -/
def scale (b : Binary) : Nat × Nat :=
  (Nat.pow 2 b.exponent.toNat, Nat.pow 2 (-b.exponent).toNat)

/-- The magnitude as a numerator and a denominator. -/
def ratio (b : Binary) : Nat × Nat :=
  (b.mantissa * b.scale.1, b.scale.2)

end Binary

end WholeBody.Decimal
