import WholeBody.Toml.Scan
import WholeBody.Toml.Value

/-!
# Numbers

Numbers and the other values that are written as one word. Single underscores may stand between two
digits.
-/

namespace WholeBody.Toml

/-- The value of the digits after those that make `n`. -/
def digitsAfter (base n : Nat) : List Char → Option Nat
  | [] => some n
  | '_' :: c :: cs => (digit? base c).bind fun d => digitsAfter base (base * n + d) cs
  | c :: cs => (digit? base c).bind fun d => digitsAfter base (base * n + d) cs

/-- The value of digits, of which there is at least one. -/
def digits? (base : Nat) : List Char → Option Nat
  | [] => none
  | c :: cs => (digit? base c).bind fun d => digitsAfter base d cs

/-- The value of decimal digits without needless zeros in front. -/
def whole? (cs : List Char) : Option Nat :=
  match cs with
  | '0' :: _ :: _ => none
  | _ => digits? 10 cs

/-- A sign, and what follows it. -/
def splitSign : List Char → Bool × List Char
  | '-' :: cs => (true, cs)
  | '+' :: cs => (false, cs)
  | cs => (false, cs)

def withSign (negative : Bool) (n : Nat) : Int := if negative then -(n : Int) else n

/-- Accepts the integers of 64 bits. -/
def inRange (n : Int) : Option Int :=
  if -9223372036854775808 ≤ n ∧ n ≤ 9223372036854775807 then some n else none

/-- An integer: decimal digits with an optional sign, or digits in another base after its mark. -/
def integer? : List Char → Option Int
  | '0' :: 'x' :: cs => (digits? 16 cs).bind fun n => inRange n
  | '0' :: 'o' :: cs => (digits? 8 cs).bind fun n => inRange n
  | '0' :: 'b' :: cs => (digits? 2 cs).bind fun n => inRange n
  | cs =>
    let (negative, cs) := splitSign cs
    (whole? cs).bind fun n => inRange (withSign negative n)

/-- Refuses a decimal that is too large for a float. A negative one becomes infinite instead. -/
def bounded (negative : Bool) (digits : Nat) (exponent : Int) : Option FloatLiteral :=
  if Decimal.decimalBits digits exponent < Decimal.infinityBits then
    some (.decimal negative digits exponent)
  else if negative then some (.infinity true) else none

def isExponentMark (c : Char) : Bool := c = 'e' || c = 'E'

/-- The exponent that follows the digits, if there is a mark. -/
def exponent? : List Char → Option Int
  | [] => some 0
  | _ :: cs =>
    let (negative, cs) := splitSign cs
    (digits? 10 cs).map (withSign negative)

/-- A number with a fraction, an exponent or both. -/
def decimal? (negative : Bool) (cs : List Char) : Option FloatLiteral := do
  let (front, tail) := cs.span (!isExponentMark ·)
  let exponent ← exponent? tail
  let (left, right) := front.span (· ≠ '.')
  let n ← whole? left
  match right with
  | [] => if tail.isEmpty then none else bounded negative n exponent
  | _ :: fraction =>
    let m ← digits? 10 fraction
    let places := (fraction.filter (· ≠ '_')).length
    bounded negative (n * Nat.pow 10 places + m) (exponent - places)

def float? (cs : List Char) : Option FloatLiteral :=
  let (negative, cs) := splitSign cs
  if cs = ['i', 'n', 'f'] then some (.infinity negative)
  else if cs = ['n', 'a', 'n'] then some .nan
  else decimal? negative cs

/-- The value of a word. -/
def word? (cs : List Char) : Option Value :=
  if cs = ['t', 'r', 'u', 'e'] then some (.boolean true)
  else if cs = ['f', 'a', 'l', 's', 'e'] then some (.boolean false)
  else
    match integer? cs with
    | some n => some (.integer n)
    | none => (float? cs).map .float

def isWordChar (c : Char) : Bool := c.isAlphanum || c = '_' || c = '+' || c = '-' || c = '.'

def word : Parser Value := fun cs =>
  let (front, rest) := cs.span isWordChar
  (word? front).map (·, rest)

end WholeBody.Toml
