import WholeBody.Decimal.Rounding

/-!
# Shortest decimal text

The fewest digits that read back as the same float, and of those the nearest to its exact value.
They are written positionally at any size: no exponent, and no point after a whole number.

The reals that round to a float `m * 2 ^ q` form an interval around it. On the grid of decimals
with a given number of digits, a point of that interval exists only if one of the two neighbours
of the value lies in it, so these two are all that is looked at.
-/

namespace WholeBody.Decimal

/-- The bounds of the reals that round to a float, in quarters of `2 ^ exponent`. The gap below a
power of two is half of the gap above it. -/
def Binary.bounds (b : Binary) : Nat × Nat :=
  let below :=
    if b.mantissa = powerMantissa ∧ leastExponent < b.exponent then 1 else 2
  (4 * b.mantissa - below, 4 * b.mantissa + 2)

/-- Does `digits * 10 ^ unit` read back as the float? The bounds do so when the mantissa is even,
because ties between floats go to the even one. -/
def Binary.readsBack (b : Binary) (unit : Int) (digits : Nat) : Bool :=
  let num := 4 * digits * Nat.pow 10 unit.toNat * b.scale.2
  let den := Nat.pow 10 (-unit).toNat * b.scale.1
  let lo := b.bounds.1 * den
  let hi := b.bounds.2 * den
  if b.mantissa % 2 = 0 then lo ≤ num && num ≤ hi else lo < num && num < hi

/-- The digits in units of `10 ^ unit` next to the value that read back, if there are any. -/
def Binary.onGrid (b : Binary) (unit : Int) : Option Nat :=
  let scaled := inUnits b.ratio.1 b.ratio.2 unit
  let low := scaled.1 / scaled.2
  match b.readsBack unit low, b.readsBack unit (low + 1) with
  | true, true => some (roundDiv scaled.1 scaled.2)
  | true, false => some low
  | false, true => some (low + 1)
  | false, false => none

/-- Looks on the grid of `10 ^ unit`, then on up to `fuel` finer ones. -/
def Binary.shortestFrom (b : Binary) (unit : Int) : Nat → Nat × Int
  | 0 =>
    let scaled := inUnits b.ratio.1 b.ratio.2 unit
    (roundDiv scaled.1 scaled.2, unit)
  | fuel + 1 =>
    match b.onGrid unit with
    | some digits => (digits, unit)
    | none => b.shortestFrom (unit - 1) fuel

/-- The first grid is one step above the leading digit, because the value may read back as the next
power of ten. Seventeen digits always suffice. -/
def Binary.shortest (b : Binary) : Nat × Int :=
  b.shortestFrom (magnitude b.ratio.1 b.ratio.2 + 1) 18

/-- Text of `digits * 10 ^ unit` without an exponent or needless zeros after the point. -/
def positional (digits : Nat) (unit : Int) : String :=
  if 0 ≤ unit then digits.repr ++ zeros unit.toNat
  else pointText digits (-unit).toNat

/-- The shortest text that reads back as the same float. -/
def shortest (x : Float) : String :=
  match Binary.ofFloat? x with
  | none => specialText x
  | some b =>
    if b.mantissa = 0 then signText b.negative ++ "0"
    else signText b.negative ++ positional b.shortest.1 b.shortest.2

end WholeBody.Decimal
