import WholeBody.Linear.Vec3
import WholeBody.Scalar.Float
import WholeBody.SortedMap
import WholeBody.Toml.Value

/-!
# Reading values

Readers take a TOML value and answer with what it means, if it means anything. Whole numbers may
stand for floats, but not the other way round.

A record is a table of named fields or an array of its fields in order. A table may have fields that
nobody asks for.
-/

namespace WholeBody.Config

open Toml (Value)

abbrev Reader (β : Type) := Value → Option β

namespace Reader

def number : Reader Float
  | .integer n => some (Decimal.nearestInt n)
  | .float x => some x.toFloat
  | _ => none

/-- A whole number below a bound. -/
def below (bound : Nat) : Reader Nat
  | .integer n => if 0 ≤ n ∧ n < bound then some n.toNat else none
  | _ => none

def string : Reader String
  | .string s => some s
  | _ => none

variable {β : Type}

def list (item : Reader β) : Reader (List β)
  | .array xs => xs.mapM item
  | _ => none

/-- The first three items of an array of numbers. -/
def vec3 : Reader (Vec3 Float)
  | .array (x :: y :: z :: _) => do return ⟨← number x, ← number y, ← number z⟩
  | _ => none

/-- The first two items of an array of numbers. -/
def numberPair : Reader (Float × Float)
  | .array (x :: y :: _) => do return (← number x, ← number y)
  | _ => none

/-- A table whose keys are free. -/
def map (item : Reader β) : Reader (SortedMap String β)
  | .table es => do
    let entries ← es.mapM fun e => (item e.2).map (e.1, ·)
    return .ofList entries
  | _ => none

/-- The first of two readers that can read a value. -/
def orElse (first second : Reader β) : Reader β := fun v =>
  match first v with
  | some b => some b
  | none => second v

/-- A name out of a list of choices, given as a string or as the key of a table with one empty
value. -/
def choice : Reader String
  | .string s => some s
  | .table [(name, .table [])] => some name
  | .table [(name, .array [])] => some name
  | _ => none

end Reader

/-- The fields of a record. -/
inductive Fields where
  | named (entries : List (String × Value))
  | listed (items : List Value)

namespace Fields

variable {β : Type}

/-- The fields of a value. A moment has none that anybody could ask for. -/
def of? : Reader Fields
  | .table es => some (.named es)
  | .array xs => some (.listed xs)
  | .moment => some (.named [])
  | _ => none

def field? (f : Fields) (index : Nat) (name : String) : Option Value :=
  match f with
  | named es => (es.find? (·.1 = name)).map (·.2)
  | listed xs => xs[index]?

/-- A field that has to be there. -/
def required (f : Fields) (index : Nat) (name : String) (r : Reader β) : Option β :=
  (f.field? index name).bind r

/-- A field with a value of its own for records without it. -/
def orDefault (f : Fields) (index : Nat) (name : String) (r : Reader β) (default : β) : Option β :=
  match f.field? index name with
  | some v => r v
  | none => some default

/-- A field that a table may leave out. -/
def optional (f : Fields) (index : Nat) (name : String) (r : Reader β) : Option (Option β) :=
  match f.field? index name, f with
  | some v, _ => (r v).map some
  | none, named _ => some none
  | none, listed _ => none

/-- Whether an array has no items from an index on. -/
def endsAt (f : Fields) (index : Nat) : Bool :=
  match f with
  | named _ => true
  | listed xs => xs.length ≤ index

/-- The tag that tells which variant of a union a value is, with the fields of the variant. The tag
of an array is its first item. -/
def tagged (tag : String) : Reader (String × Fields)
  | .table es => do
    let t ← (named es).required 0 tag Reader.string
    return (t, named es)
  | .array (.string t :: xs) => some (t, listed xs)
  | _ => none

end Fields

end WholeBody.Config
