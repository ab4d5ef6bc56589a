import WholeBody.Decimal.Binary

/-!
# Rounded decimal text

Text with a fixed number of places or of significant digits. Both round the exact value to the
nearest decimal, and a tie goes to the even digit.
-/

namespace WholeBody.Decimal

/-- The natural number nearest to `num / den`, of two equally near ones the even one. -/
def roundDiv (num den : Nat) : Nat :=
  let q := num / den
  let r := num % den
  if 2 * r < den then q
  else if den < 2 * r then q + 1
  else if q % 2 = 0 then q else q + 1

/-- Number of decimal digits. -/
def digitCount (n : Nat) : Nat := n.repr.length

def zeros (n : Nat) : String := String.ofList (List.replicate n '0')

def signText (negative : Bool) : String := if negative then "-" else ""

/-- The exponent `e` with `10 ^ e ≤ num / den < 10 ^ (e + 1)`, for positive arguments. -/
def magnitude (num den : Nat) : Int :=
  if den ≤ num then digitCount (num / den) - 1
  else
    let d := digitCount (den / num)
    if num * Nat.pow 10 (d - 1) = den then 1 - (d : Int) else -(d : Int)

/-- The magnitude `num / den` in units of `10 ^ unit`, as a numerator and a denominator. -/
def inUnits (num den : Nat) (unit : Int) : Nat × Nat :=
  (num * Nat.pow 10 (-unit).toNat, den * Nat.pow 10 unit.toNat)

/-- Text of `digits * 10 ^ (-places)` with exactly `places` digits after the point. -/
def pointText (digits places : Nat) : String :=
  if places = 0 then digits.repr
  else
    let text := zeros (places + 1 - digitCount digits) ++ digits.repr
    let whole := text.length - places
    String.ofList (text.toList.take whole) ++ "." ++ String.ofList (text.toList.drop whole)

/-- Text of a float that is infinite or not a number. -/
def specialText (x : Float) : String :=
  if x.isNaN then "NaN" else if x < 0 then "-inf" else "inf"

/-- Text with `places` digits after the point, the sign of a zero included. -/
def fixed (places : Nat) (x : Float) : String :=
  match Binary.ofFloat? x with
  | none => specialText x
  | some b => signText b.negative ++
      pointText (roundDiv (b.ratio.1 * Nat.pow 10 places) b.ratio.2) places

/-- A positive magnitude rounded to `count` significant digits: the digits, read as one number,
and the exponent of the first of them. -/
def significant (count : Nat) (num den : Nat) : Nat × Int :=
  let e := magnitude num den
  let scaled := inUnits num den (e - (count - 1 : Nat))
  let digits := roundDiv scaled.1 scaled.2
  if digits = Nat.pow 10 count then (Nat.pow 10 (count - 1), e + 1) else (digits, e)

/-- One digit, a point and the digits after it up to the last that is not zero, and the signed
exponent: `-2.5e+1`. A zero is `0e+0`. -/
def scientific (count : Nat) (x : Float) : String :=
  match Binary.ofFloat? x with
  | none => specialText x
  | some b =>
    if b.mantissa = 0 then "0e+0"
    else
      let rounded := significant count b.ratio.1 b.ratio.2
      let digits := rounded.1.repr.toList.reverse.dropWhile (· = '0') |>.reverse
      let tail := digits.drop 1
      signText b.negative ++ String.ofList (digits.take 1)
        ++ (if tail.isEmpty then "" else "." ++ String.ofList tail)
        ++ "e" ++ (if rounded.2 < 0 then "-" else "+") ++ rounded.2.natAbs.repr

end WholeBody.Decimal
