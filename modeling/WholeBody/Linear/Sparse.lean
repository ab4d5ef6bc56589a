import WholeBody.Linear.Mat

/-!
# Sparse matrices

Compressed columns: the row indices and values of the stored entries, column after column, and for
each column the number of entries stored before it. Only entries that are not zero are stored.
-/

namespace WholeBody

/-- A matrix in compressed columns. -/
structure SparseMat (α : Type) where
  rows : Nat
  cols : Nat
  /-- For each column the index of its first entry, and at last the number of entries. -/
  colStart : List Nat
  rowIndex : List Nat
  values : List α

namespace SparseMat

variable {α : Type}

/-- The partial sums of a list, with the sum of all of it at last. -/
def partialSums : Nat → List Nat → List Nat
  | n, [] => [n]
  | n, k :: rest => n :: partialSums (n + k) rest

/-- The matrix with the given columns, each a list of row indices with values. -/
def ofColumns (rows : Nat) (columns : List (List (Nat × α))) : SparseMat α where
  rows
  cols := columns.length
  colStart := partialSums 0 (columns.map List.length)
  rowIndex := columns.flatMap (·.map (·.1))
  values := columns.flatMap (·.map (·.2))

/-- The entries of a column. -/
def column (m : SparseMat α) (j : Nat) : List (Nat × α) :=
  let first := m.colStart.getD j 0
  let count := m.colStart.getD (j + 1) 0 - first
  ((m.rowIndex.zip m.values).drop first).take count

/-- The columns of the matrix. -/
def columns (m : SparseMat α) : List (List (Nat × α)) := (List.range m.cols).map m.column

end SparseMat

namespace Mat

variable {α : Type} [Scalar α]

/-- The entries of column `j` in the first `count` rows that are not zero. -/
def storedColumn (m : Mat α) (count j : Nat) : List (Nat × α) :=
  (List.range count).filterMap fun i =>
    if Scalar.IsZero (m.entry i j) then none else some (i, m.entry i j)

def toSparse (m : Mat α) : SparseMat α :=
  .ofColumns m.rows ((List.range m.cols).map (m.storedColumn m.rows))

/-- The upper triangle, diagonal included. -/
def upperToSparse (m : Mat α) : SparseMat α :=
  .ofColumns m.rows ((List.range m.cols).map fun j => m.storedColumn (Nat.min (j + 1) m.rows) j)

end Mat

end WholeBody
