/-!
# Number buffers

Loops over unboxed arrays of machine floats, the inner loops of the interior-point method. Reading
beyond an end gives zero.
-/

namespace WholeBody.InteriorPoint

@[specialize] def tabulateFrom (f : Nat → Float) : Nat → Nat → FloatArray → FloatArray
  | _, 0, a => a
  | i, k + 1, a => tabulateFrom f (i + 1) k (a.push (f i))

/-- The buffer of `f 0, …, f (n - 1)`. -/
@[inline] def tabulate (n : Nat) (f : Nat → Float) : FloatArray :=
  tabulateFrom f 0 n (FloatArray.emptyWithCapacity n)

@[specialize] def sumFrom (f : Nat → Float) : Nat → Nat → Float → Float
  | _, 0, acc => acc
  | i, k + 1, acc => sumFrom f (i + 1) k (acc + f i)

/-- The sum of `f start, …, f (start + len - 1)`. -/
@[inline] def sumOf (start len : Nat) (f : Nat → Float) : Float := sumFrom f start len 0.0

@[specialize] def maxFrom (f : Nat → Float) : Nat → Nat → Float → Float
  | _, 0, acc => acc
  | i, k + 1, acc =>
    let y := f i
    maxFrom f (i + 1) k (if acc < y then y else acc)

/-- The largest of zero and the magnitudes of `f start, …, f (start + len - 1)`. -/
@[inline] def maxAbsOf (start len : Nat) (f : Nat → Float) : Float :=
  maxFrom (fun i => (f i).abs) start len 0.0

/-- The sum of the products of `len` entries from `i` and from `j` on, added to `acc`. -/
def dotFrom (a : @& FloatArray) (i : Nat) (b : @& FloatArray) (j : Nat) : Nat → Float → Float
  | 0, acc => acc
  | k + 1, acc => dotFrom a (i + 1) b (j + 1) k (acc + a.get! i * b.get! j)

def dot (a b : FloatArray) : Float := dotFrom a 0 b 0 a.size 0.0

def norm (a : FloatArray) : Float := (dot a a).sqrt

/-- Euclidean length of the products of equal positions. -/
def normScaled (a b : FloatArray) : Float :=
  (sumOf 0 a.size fun i => let p := a.get! i * b.get! i; p * p).sqrt

def maxAbs (a : FloatArray) : Float := maxAbsOf 0 a.size a.get!

/-- Subtracts `c` times `len` entries of `src` from `i` on from the entries of `dst` from `j` on. -/
def subtractFrom (c : Float) (src : @& FloatArray) (i : Nat) :
    Nat → Nat → FloatArray → FloatArray
  | _, 0, dst => dst
  | j, k + 1, dst =>
    subtractFrom c src (i + 1) (j + 1) k (dst.set! j (dst.get! j - c * src.get! i))

def addTo (a : FloatArray) (i : Nat) (c : Float) : FloatArray := a.set! i (a.get! i + c)

def allFinite (a : FloatArray) : Bool := maxAbs a < 1.0 / 0.0 && !(dot a a).isNaN

end WholeBody.InteriorPoint
