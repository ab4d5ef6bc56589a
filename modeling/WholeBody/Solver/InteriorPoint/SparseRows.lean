import WholeBody.Linear.Sparse
import WholeBody.Solver.InteriorPoint.Buffer

/-!
# Sparse rows

Matrices kept row by row for products with vectors.
-/

namespace WholeBody.InteriorPoint

/-- The stored entries of a matrix, row after row. -/
structure SparseRows where
  cols : Nat
  /-- The index of the first entry of each row, and at last the number of entries. -/
  start : Array Nat
  col : Array Nat
  value : FloatArray

namespace SparseRows

def rows (m : SparseRows) : Nat := m.start.size - 1

/-- The matrix with the given rows, each a list of column indices with values. -/
def ofRows (cols : Nat) (rows : List (List (Nat × Float))) : SparseRows where
  cols
  start := (SparseMat.partialSums 0 (rows.map List.length)).toArray
  col := (rows.flatMap (·.map (·.1))).toArray
  value := ⟨(rows.flatMap (·.map (·.2))).toArray⟩

/-- The rows of the transpose, which are lists of entries by row index. -/
def transposeRows (rows : Nat) (columns : List (List (Nat × Float))) :
    List (List (Nat × Float)) :=
  let empty : Array (List (Nat × Float)) := Array.replicate rows []
  let filled := columns.zipIdx.foldr
    (fun c acc => c.1.foldr (fun e acc => acc.modify e.1 ((c.2, e.2) :: ·)) acc) empty
  filled.toList

/-- The product of row `i` with a vector. -/
def rowDotFrom (m : @& SparseRows) (x : @& FloatArray) : Nat → Nat → Float → Float
  | _, 0, acc => acc
  | k, len + 1, acc =>
    rowDotFrom m x (k + 1) len (acc + m.value.get! k * x.get! (m.col.getD k 0))

@[inline] def first (m : SparseRows) (i : Nat) : Nat := m.start.getD i 0

@[inline] def count (m : SparseRows) (i : Nat) : Nat := m.start.getD (i + 1) 0 - m.first i

@[inline] def column (m : SparseRows) (k : Nat) : Nat := m.col.getD k 0

def rowDot (m : SparseRows) (i : Nat) (x : FloatArray) : Float :=
  rowDotFrom m x (m.first i) (m.count i) 0.0

def mulVec (m : SparseRows) (x : FloatArray) : FloatArray :=
  tabulate m.rows fun i => m.rowDot i x

/-- The row that holds each stored entry. -/
def rowOf (m : SparseRows) : Array Nat :=
  ((List.range m.rows).flatMap fun i => List.replicate (m.count i) i).toArray

/-- Every entry multiplied by a factor of its row, a factor of its column and `c`. -/
def scale (m : SparseRows) (left right : FloatArray) (c : Float) : SparseRows :=
  let rowOf := m.rowOf
  { m with
    value := tabulate m.value.size fun k =>
      left.get! (rowOf.getD k 0) * m.value.get! k * right.get! (m.column k) * c }

/-- The largest magnitude in row `i`. -/
def rowMaxAbs (m : SparseRows) (i : Nat) : Float :=
  maxAbsOf (m.first i) (m.count i) m.value.get!

end SparseRows

end WholeBody.InteriorPoint
