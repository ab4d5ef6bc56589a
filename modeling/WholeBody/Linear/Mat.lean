import WholeBody.Linear.Vec

/-!
# Matrices

Matrices of any shape. As with vectors, `m.entry i j` is zero outside the shape, `Mat.ofFn` is the
one way to make a matrix, and `entry_ofFn` describes every operation. An operation on two matrices
follows the shape of the first.
-/

namespace WholeBody

/-- A matrix with `rows` rows and `cols` columns. -/
structure Mat (α : Type) where
  rows : Nat
  cols : Nat
  entries : Vector (Vector α cols) rows

namespace Mat

variable {α : Type}

/-- The `rows × cols` matrix with the entry `f i j` in row `i` and column `j`. -/
def ofFn (rows cols : Nat) (f : Nat → Nat → α) : Mat α :=
  ⟨rows, cols, Vector.ofFn fun i : Fin rows => Vector.ofFn fun j : Fin cols => f i j⟩

/-- The entry in a row and a column, zero outside the shape. -/
def entry [Zero α] (m : Mat α) (i j : Nat) : α :=
  if hi : i < m.rows then if hj : j < m.cols then m.entries[i][j] else 0 else 0

@[simp] theorem rows_ofFn (r c : Nat) (f : Nat → Nat → α) : (ofFn r c f).rows = r := rfl

@[simp] theorem cols_ofFn (r c : Nat) (f : Nat → Nat → α) : (ofFn r c f).cols = c := rfl

variable [Scalar α]

@[simp] theorem entry_ofFn (r c : Nat) (f : Nat → Nat → α) (i j : Nat) :
    (ofFn r c f).entry i j = if i < r ∧ j < c then f i j else 0 := by
  by_cases hi : i < r <;> by_cases hj : j < c <;> simp [entry, ofFn, hi, hj]

theorem entry_ofFn_of_lt {r c : Nat} {f : Nat → Nat → α} {i j : Nat} (hi : i < r) (hj : j < c) :
    (ofFn r c f).entry i j = f i j := by
  simp [hi, hj]

theorem entry_of_rows_le {m : Mat α} {i j : Nat} (h : m.rows ≤ i) : m.entry i j = 0 := by
  simp [entry, Nat.not_lt.2 h]

theorem entry_of_cols_le {m : Mat α} {i j : Nat} (h : m.cols ≤ j) : m.entry i j = 0 := by
  simp [entry, Nat.not_lt.2 h]

/-- Matrices of one shape with the same entries are equal. -/
theorem ext_entry {m k : Mat α} (hr : m.rows = k.rows) (hc : m.cols = k.cols)
    (h : ∀ i < m.rows, ∀ j < m.cols, m.entry i j = k.entry i j) : m = k := by
  obtain ⟨r, c, a⟩ := m
  obtain ⟨r', c', b⟩ := k
  simp only at hr hc
  subst hr hc
  congr 1
  refine Vector.ext fun i hi => Vector.ext fun j hj => ?_
  simpa [entry, hi, hj] using h i hi j hj

def zeros (r c : Nat) : Mat α := ofFn r c fun _ _ => 0

/-- The matrix with `d i` in place `(i, i)` and zero elsewhere. -/
def diagonal (n : Nat) (d : Nat → α) : Mat α := ofFn n n fun i j => if i = j then d i else 0

/-- The identity multiplied by a number, entry by entry. -/
def scalarMatrix (n : Nat) (c : α) : Mat α :=
  ofFn n n fun i j => (if i = j then 1 else 0) * c

def identity (n : Nat) : Mat α := diagonal n fun _ => 1

/-- The matrix with the given rows, each of the length of the first. -/
def ofRows (rows : List (List α)) : Mat α :=
  ofFn rows.length (rows.headD []).length fun i j => (rows.getD i []).getD j 0

def transpose (m : Mat α) : Mat α := ofFn m.cols m.rows fun i j => m.entry j i

instance : Neg (Mat α) := ⟨fun m => ofFn m.rows m.cols fun i j => -m.entry i j⟩

instance : Add (Mat α) := ⟨fun m k => ofFn m.rows m.cols fun i j => m.entry i j + k.entry i j⟩

instance : SMul α (Mat α) := ⟨fun c m => ofFn m.rows m.cols fun i j => c * m.entry i j⟩

instance : Mul (Mat α) := ⟨fun m k =>
  ofFn m.rows k.cols fun i j => Scalar.sum m.cols fun l => m.entry i l * k.entry l j⟩

theorem neg_def (m : Mat α) : -m = ofFn m.rows m.cols fun i j => -m.entry i j := rfl

theorem add_def (m k : Mat α) :
    m + k = ofFn m.rows m.cols fun i j => m.entry i j + k.entry i j := rfl

theorem smul_def (c : α) (m : Mat α) : c • m = ofFn m.rows m.cols fun i j => c * m.entry i j := rfl

theorem mul_def (m k : Mat α) : m * k =
    ofFn m.rows k.cols fun i j => Scalar.sum m.cols fun l => m.entry i l * k.entry l j := rfl

/-- The product of a matrix and a column vector. -/
def mulVec (m : Mat α) (v : Vec α) : Vec α :=
  Vec.ofFn m.rows fun i => Scalar.sum m.cols fun j => m.entry i j * v.entry j

@[simp] theorem size_mulVec (m : Mat α) (v : Vec α) : (m.mulVec v).size = m.rows :=
  Vec.size_ofFn _ _

/-- Writes `b` over the part of `m` whose first entry is `(row, col)`. -/
def setBlock (m : Mat α) (row col : Nat) (b : Mat α) : Mat α :=
  ofFn m.rows m.cols fun i j =>
    if row ≤ i ∧ i < row + b.rows ∧ col ≤ j ∧ j < col + b.cols then b.entry (i - row) (j - col)
    else m.entry i j

/-- Adds `b` to the part of `m` whose first entry is `(row, col)`. -/
def addBlock (m : Mat α) (row col : Nat) (b : Mat α) : Mat α :=
  ofFn m.rows m.cols fun i j =>
    if row ≤ i ∧ i < row + b.rows ∧ col ≤ j ∧ j < col + b.cols then
      m.entry i j + b.entry (i - row) (j - col)
    else m.entry i j

/-- Adds `c` to the diagonal entries with an index in `start, …, start + len - 1`. -/
def addDiagonal (m : Mat α) (start len : Nat) (c : α) : Mat α :=
  ofFn m.rows m.cols fun i j =>
    if i = j ∧ start ≤ i ∧ i < start + len then m.entry i j + c else m.entry i j

def row (m : Mat α) (i : Nat) : List α := List.ofFn fun j : Fin m.cols => m.entry i j

def toRows (m : Mat α) : List (List α) := List.ofFn fun i : Fin m.rows => m.row i

/-- All entries, column by column. -/
def toList (m : Mat α) : List α :=
  (List.range m.cols).flatMap fun j => (List.range m.rows).map fun i => m.entry i j

def allFinite (m : Mat α) : Bool := m.toList.all Scalar.isFinite

/-- Largest magnitude of an entry. -/
def maxAbs (m : Mat α) : α := Scalar.maxAbs m.toList

def IsSquare (m : Mat α) : Prop := m.rows = m.cols

instance (m : Mat α) : Decidable m.IsSquare := inferInstanceAs (Decidable (_ = _))

/-- Largest difference between an entry and its mirror image. -/
def asymmetry (m : Mat α) : α :=
  (ofFn m.rows m.cols fun i j => m.entry i j - m.entry j i).maxAbs

end Mat

end WholeBody
