import WholeBody.Decimal.Nearest

/-!
# TOML values

The values that a TOML document can hold. Numbers are kept as they are written; dates and times have
no use in a configuration, so all of them are one value.
-/

namespace WholeBody.Toml

/-- A number written with a fraction or an exponent, or one of the special names. -/
inductive FloatLiteral where
  /-- The number `± digits * 10 ^ exponent`. -/
  | decimal (negative : Bool) (digits : Nat) (exponent : Int)
  | infinity (negative : Bool)
  | nan
deriving DecidableEq

/-- The nearest float. -/
def FloatLiteral.toFloat : FloatLiteral → Float
  | decimal negative digits exponent => Decimal.nearest negative digits exponent
  | infinity negative => Decimal.ofMagnitude negative Decimal.infinityBits
  | nan => 0.0 / 0.0

inductive Value where
  | string (text : String)
  | integer (n : Int)
  | float (x : FloatLiteral)
  | boolean (b : Bool)
  /-- A date, a time or both. -/
  | moment
  | array (items : List Value)
  | table (entries : List (String × Value))

end WholeBody.Toml
