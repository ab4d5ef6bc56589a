import Mathlib
import WholeBody.Proofs.Linear.Sparse
import WholeBody.Proofs.Linear.Symmetric

/-!
# The format of compressed columns

A dense matrix in compressed columns keeps to the format: the columns follow one another without a
gap, the rows of a column ascend, and no zero is stored. Nothing else is lost, so the matrix can be
read back, and the upper triangle of a symmetric matrix is enough to know its quadratic form.

## Main definitions

* `SparseMat.Compressed` — the format.
* `SparseMat.toMat` — the matrix that is read back.
* `SparseMat.symmetricForm` — the form of the symmetric matrix whose upper triangle is stored, found
  by a walk over the stored entries.

## Main statements

* `SparseMat.compressed_ofColumns` — columns that ascend and have no zero give the format.
* `Mat.symmetricForm_upperToSparse` — the form of a symmetric matrix from its upper triangle.
* `sparse_conversions_lossless` — both conversions.
-/

namespace WholeBody

open Finset

namespace SparseMat

variable {α : Type} [Scalar α]

/-- The format of compressed columns. -/
structure Compressed (s : SparseMat α) : Prop where
  /-- One start for each column, and one more. -/
  length_colStart : s.colStart.length = s.cols + 1
  first : s.colStart.head? = some 0
  ascending : s.colStart.Pairwise (· ≤ ·)
  last : s.colStart.getLast? = some s.values.length
  length_rowIndex : s.rowIndex.length = s.values.length
  /-- The rows of a column ascend without repetition. -/
  rows_ascending : ∀ j < s.cols, ((s.column j).map (·.1)).Pairwise (· < ·)
  row_lt : ∀ i ∈ s.rowIndex, i < s.rows
  /-- No zero is stored. -/
  nonzero : ∀ x ∈ s.values, ¬ Scalar.IsZero x

/-- The matrix that is read back, zero where nothing is stored. -/
def toMat (s : SparseMat α) : Mat α := .ofFn s.rows s.cols s.entry

end SparseMat

namespace Mat

variable {α : Type} [Scalar α] (m : Mat α)

/-- The same matrix with `0` for every zero, whatever its sign. -/
def plainZeros : Mat α :=
  .ofFn m.rows m.cols fun i j => if Scalar.IsZero (m.entry i j) then 0 else m.entry i j

/-- The upper triangle, diagonal included, with zeros below it. -/
def upper : Mat α := .ofFn m.rows m.cols fun i j => if i ≤ j then m.entry i j else 0

end Mat

namespace SparseMat

variable {α : Type} [Scalar α]

/-- Compressed columns that are read back as a matrix, up to the signs of its zeros. -/
structure Represents (s : SparseMat α) (m : Mat α) : Prop where
  compressed : s.Compressed
  rows : s.rows = m.rows
  cols : s.cols = m.cols
  toMat : s.toMat = m.plainZeros

/-- The form of the symmetric matrix whose upper triangle is stored: every stored entry counts once
on the diagonal, and twice elsewhere. -/
noncomputable def symmetricForm (s : SparseMat ℝ) (x : Vec ℝ) : ℝ :=
  ∑ j ∈ range s.cols, ((s.column j).map fun e =>
    ((if e.1 = j then 1 else 2 : ℕ) : ℝ) * (x.entry e.1 * (e.2 * x.entry j))).sum

theorem symmetricForm_eq (s : SparseMat ℝ) (x : Vec ℝ) :
    s.symmetricForm x = ∑ j ∈ range s.cols, ((s.column j).map fun e =>
      (if e.1 = j then 1 else 2) * (x.entry e.1 * (e.2 * x.entry j))).sum := by
  simp only [symmetricForm, Nat.cast_ite, Nat.cast_one, Nat.cast_ofNat]

/-! ### Starts of columns -/

theorem length_partialSums (n : ℕ) (ks : List ℕ) :
    (partialSums n ks).length = ks.length + 1 := by
  induction ks generalizing n with
  | nil => rfl
  | cons k rest ih => rw [partialSums, List.length_cons, ih, List.length_cons]

theorem head?_partialSums (n : ℕ) (ks : List ℕ) : (partialSums n ks).head? = some n := by
  cases ks <;> rfl

theorem getLast?_partialSums (n : ℕ) (ks : List ℕ) :
    (partialSums n ks).getLast? = some (n + ks.sum) := by
  induction ks generalizing n with
  | nil => rfl
  | cons k rest ih =>
    rw [partialSums, List.getLast?_cons, ih, Option.getD_some, List.sum_cons, Nat.add_assoc]

theorem le_of_mem_partialSums {n a : ℕ} {ks : List ℕ} (h : a ∈ partialSums n ks) : n ≤ a := by
  induction ks generalizing n with
  | nil => exact (List.mem_singleton.1 h).ge
  | cons k rest ih =>
    obtain rfl | h := List.mem_cons.1 h
    · exact le_rfl
    · exact (Nat.le_add_right n k).trans (ih h)

theorem pairwise_partialSums (n : ℕ) (ks : List ℕ) :
    (partialSums n ks).Pairwise (· ≤ ·) := by
  induction ks generalizing n with
  | nil => exact List.pairwise_singleton _ _
  | cons k rest ih =>
    exact .cons (fun a ha => (Nat.le_add_right n k).trans (le_of_mem_partialSums ha)) (ih (n + k))

/-! ### The format -/

variable {rows : ℕ} {columns : List (List (ℕ × α))}

/-- Columns that ascend within the rows and have no zero give the format. -/
theorem compressed_ofColumns
    (hascending : ∀ c ∈ columns, (c.map (·.1)).Pairwise (· < ·))
    (hstored : ∀ c ∈ columns, ∀ e ∈ c, e.1 < rows ∧ ¬ Scalar.IsZero e.2) :
    (ofColumns rows columns).Compressed where
  length_colStart := by
    simp only [ofColumns, length_partialSums, List.length_map]
  first := head?_partialSums _ _
  ascending := pairwise_partialSums _ _
  last := by
    simp only [ofColumns, getLast?_partialSums, List.length_flatMap, List.length_map, Nat.zero_add]
  length_rowIndex := by
    simp only [ofColumns, List.length_flatMap, List.length_map]
  rows_ascending j hj := by
    rw [column_ofColumns rows hj]
    exact hascending _ (List.getElem_mem hj)
  row_lt i hi := by
    obtain ⟨c, hc, hi⟩ := List.mem_flatMap.1 hi
    obtain ⟨e, he, rfl⟩ := List.mem_map.1 hi
    exact (hstored c hc e he).1
  nonzero x hx := by
    obtain ⟨c, hc, hx⟩ := List.mem_flatMap.1 hx
    obtain ⟨e, he, rfl⟩ := List.mem_map.1 hx
    exact (hstored c hc e he).2

end SparseMat

namespace Mat

section Stored

variable {α : Type} [Scalar α] (m : Mat α)

/-- The stored entries of a column. -/
theorem mem_storedColumn {count j : ℕ} {e : ℕ × α} (h : e ∈ m.storedColumn count j) :
    e.1 < count ∧ ¬ Scalar.IsZero e.2 := by
  obtain ⟨i, hi, he⟩ := List.mem_filterMap.1 h
  split at he
  · cases he
  · rename_i hzero
    cases he
    exact ⟨List.mem_range.1 hi, hzero⟩

theorem pairwise_storedColumn (count j : ℕ) :
    ((m.storedColumn count j).map (·.1)).Pairwise (· < ·) := by
  rw [List.pairwise_map, storedColumn]
  apply List.Pairwise.filterMap _ _ List.pairwise_lt_range
  intro i i' hi e he e' he'
  split at he
  · cases he
  · cases he
    split at he'
    · cases he'
    · cases he'
      exact hi

/-- The columns of a matrix, column `j` up to row `count j`. -/
def storedUpTo (count : ℕ → ℕ) : SparseMat α :=
  .ofColumns m.rows ((List.range m.cols).map fun j => m.storedColumn (count j) j)

variable (count : ℕ → ℕ)

@[simp] theorem rows_storedUpTo : (m.storedUpTo count).rows = m.rows := rfl

@[simp] theorem cols_storedUpTo : (m.storedUpTo count).cols = m.cols := by
  rw [storedUpTo, SparseMat.ofColumns, List.length_map, List.length_range]

theorem column_storedUpTo {j : ℕ} (hj : j < m.cols) :
    (m.storedUpTo count).column j = m.storedColumn (count j) j := by
  have hlength : j < ((List.range m.cols).map fun j => m.storedColumn (count j) j).length := by
    rwa [List.length_map, List.length_range]
  rw [storedUpTo, SparseMat.column_ofColumns m.rows hlength, List.getElem_map, List.getElem_range]

theorem compressed_storedUpTo (hcount : ∀ j, count j ≤ m.rows) :
    (m.storedUpTo count).Compressed := by
  apply SparseMat.compressed_ofColumns
  · intro c hc
    obtain ⟨j, -, rfl⟩ := List.mem_map.1 hc
    exact m.pairwise_storedColumn _ j
  · intro c hc e he
    obtain ⟨j, -, rfl⟩ := List.mem_map.1 hc
    obtain ⟨hrow, hzero⟩ := m.mem_storedColumn he
    exact ⟨hrow.trans_le (hcount j), hzero⟩

theorem toMat_storedUpTo : (m.storedUpTo count).toMat = .ofFn m.rows m.cols fun i j =>
    if i < count j ∧ ¬ Scalar.IsZero (m.entry i j) then m.entry i j else 0 := by
  have hcols := m.cols_storedUpTo count
  refine ext_entry rfl hcols fun i (hi : i < m.rows) j (hj : j < (m.storedUpTo count).cols) => ?_
  rw [hcols] at hj
  rw [SparseMat.toMat, rows_storedUpTo, hcols, entry_ofFn_of_lt hi hj, entry_ofFn_of_lt hi hj,
    SparseMat.entry, m.column_storedUpTo count hj, lookup_storedColumn]
  split <;> rfl

/-- All of a matrix is stored. -/
theorem represents_toSparse : m.toSparse.Represents m := by
  refine ⟨m.compressed_storedUpTo _ fun _ => le_rfl, rfl, m.cols_storedUpTo _, ?_⟩
  refine (m.toMat_storedUpTo fun _ => m.rows).trans ?_
  refine ext_entry rfl rfl fun i (hi : i < m.rows) j (hj : j < m.cols) => ?_
  rw [plainZeros, entry_ofFn_of_lt hi hj, entry_ofFn_of_lt hi hj]
  by_cases hzero : Scalar.IsZero (m.entry i j)
  · rw [if_neg fun h => h.2 hzero, if_pos hzero]
  · rw [if_pos ⟨hi, hzero⟩, if_neg hzero]

/-- The upper triangle is stored. -/
theorem represents_upperToSparse : m.upperToSparse.Represents m.upper := by
  refine ⟨m.compressed_storedUpTo _ fun j => Nat.min_le_right _ _, rfl, m.cols_storedUpTo _, ?_⟩
  refine (m.toMat_storedUpTo fun j => Nat.min (j + 1) m.rows).trans ?_
  refine ext_entry rfl rfl fun i (hi : i < m.rows) j (hj : j < m.cols) => ?_
  have hcount : i < Nat.min (j + 1) m.rows ↔ i ≤ j :=
    ⟨fun h => Nat.le_of_lt_succ (h.trans_le (Nat.min_le_left _ _)),
      fun h => lt_min (Nat.lt_succ_of_le h) hi⟩
  have hupper : m.upper.entry i j = if i ≤ j then m.entry i j else 0 := entry_ofFn_of_lt hi hj
  have hplain : m.upper.plainZeros.entry i j =
      if Scalar.IsZero (m.upper.entry i j) then 0 else m.upper.entry i j := entry_ofFn_of_lt hi hj
  rw [entry_ofFn_of_lt hi hj, hplain, hupper]
  by_cases hij : i ≤ j
  · by_cases hzero : Scalar.IsZero (m.entry i j)
    · simp only [hij, if_true, hzero, not_true, and_false, if_false]
    · simp only [hij, if_true, hzero, not_false_iff, and_true, hcount, if_false]
  · simp only [hcount, hij, false_and, if_false, ite_self]

/-- No stored row is below the diagonal. -/
theorem row_le_of_mem_column_upperToSparse {j : ℕ} (hj : j < m.cols) {e : ℕ × α}
    (he : e ∈ m.upperToSparse.column j) : e.1 ≤ j := by
  have hcolumn := m.column_storedUpTo (fun j => Nat.min (j + 1) m.rows) hj
  rw [show m.upperToSparse.column j = _ from hcolumn] at he
  exact Nat.le_of_lt_succ ((m.mem_storedColumn he).1.trans_le (Nat.min_le_left _ _))

end Stored

/-! ### Exact numbers -/

theorem plainZeros_eq (m : Mat ℝ) : m.plainZeros = m := by
  refine ext_entry rfl rfl fun i (hi : i < m.rows) j (hj : j < m.cols) => ?_
  rw [plainZeros, entry_ofFn_of_lt hi hj]
  split
  · rename_i hzero
    exact (Scalar.isZero_real.1 hzero).symm
  · rfl

/-- A sum over the stored entries of a column is one over its rows. -/
theorem sum_storedColumn (m : Mat ℝ) (count j : ℕ) {f : ℕ → ℝ → ℝ} (hf : ∀ i, f i 0 = 0) :
    ((m.storedColumn count j).map fun e => f e.1 e.2).sum =
      ∑ i ∈ range count, f i (m.entry i j) := by
  induction count with
  | zero => rfl
  | succ n ih =>
    rw [storedColumn, List.range_succ, List.filterMap_append, List.map_append, List.sum_append,
      sum_range_succ, ← ih, storedColumn]
    congr 1
    by_cases hzero : m.entry n j = 0
    · simp [Scalar.isZero_real, hzero, hf]
    · simp [Scalar.isZero_real, hzero]

end Mat

/-- A symmetric sum over a square, from the triangle above its diagonal. -/
theorem sum_square_eq_sum_triangle {n : ℕ} {a : ℕ → ℕ → ℝ} (h : ∀ i j, a i j = a j i) :
    ∑ i ∈ range n, ∑ j ∈ range n, a i j =
      ∑ j ∈ range n, ∑ i ∈ range (j + 1), (if i = j then 1 else 2) * a i j := by
  induction n with
  | zero => rfl
  | succ n ih =>
    have hcolumn : ∑ i ∈ range (n + 1), (if i = n then 1 else 2) * a i n =
        ∑ i ∈ range n, a i n + ∑ j ∈ range n, a n j + a n n := by
      have hrow : ∑ j ∈ range n, a n j = ∑ i ∈ range n, a i n := sum_congr rfl fun j _ => h n j
      rw [sum_range_succ, if_pos rfl, one_mul, hrow, ← two_mul, mul_sum]
      congr 1
      exact sum_congr rfl fun i hi => by rw [if_neg (mem_range.1 hi).ne]
    rw [sum_range_succ, sum_range_succ (fun j => ∑ i ∈ range (j + 1), _), ← ih, hcolumn]
    simp only [sum_range_succ, sum_add_distrib]
    ring

namespace Mat

variable {m : Mat ℝ} {x : Vec ℝ}

/-- The form of a symmetric matrix from its upper triangle. -/
theorem symmetricForm_upperToSparse (hsymm : m.IsSymmetric) (hx : m.Over x) :
    m.upperToSparse.symmetricForm x = m.form x := by
  have hcols : m.upperToSparse.cols = x.size := (m.cols_storedUpTo _).trans hx.2
  rw [form_eq_sum hx, sum_square_eq_sum_triangle fun i j => by rw [hsymm i j]; ring,
    SparseMat.symmetricForm_eq, hcols]
  refine sum_congr rfl fun j hj => ?_
  have hj : j < x.size := mem_range.1 hj
  have hcolumn : m.upperToSparse.column j = m.storedColumn (j + 1) j := by
    refine (m.column_storedUpTo _ (hj.trans_eq hx.2.symm)).trans ?_
    exact congrArg (m.storedColumn · j) (Nat.min_eq_left (hj.trans_eq hx.1.symm))
  rw [hcolumn]
  exact m.sum_storedColumn (j + 1) j
    (f := fun i y => (if i = j then 1 else 2) * (x.entry i * (y * x.entry j))) fun i => by ring

end Mat

/-- Both conversions keep to the format and lose nothing but the signs of zeros. In exact arithmetic
a matrix is read back as it was, its triangle as its triangle, and a symmetric matrix and its form
are known from the triangle. -/
theorem sparse_conversions_lossless :
    (∀ (α : Type) [Scalar α] (m : Mat α), m.toSparse.Represents m ∧
      (m.IsSquare → m.upperToSparse.Represents m.upper ∧
        ∀ j < m.cols, ∀ e ∈ m.upperToSparse.column j, e.1 ≤ j)) ∧
    ∀ m : Mat ℝ, m.toSparse.toMat = m ∧
      (m.IsSquare → m.upperToSparse.toMat = m.upper ∧
        (m.IsSymmetric → m.upperToSparse.mirror = m ∧
          ∀ x, m.Over x → m.upperToSparse.symmetricForm x = m.form x)) := by
  refine ⟨fun α _ m => ⟨m.represents_toSparse, fun _ => ?_⟩, fun m => ⟨?_, fun hsquare => ?_⟩⟩
  · exact ⟨m.represents_upperToSparse, fun j hj e => m.row_le_of_mem_column_upperToSparse hj⟩
  · rw [m.represents_toSparse.toMat, m.plainZeros_eq]
  · refine ⟨?_, fun hsymm => ⟨Mat.mirror_upperToSparse hsquare hsymm, fun x hx => ?_⟩⟩
    · rw [m.represents_upperToSparse.toMat, m.upper.plainZeros_eq]
    · exact Mat.symmetricForm_upperToSparse hsymm hx

/-- The matrix with the rows `[2, 1]` and `[1, 3]`. -/
theorem sparse_conversions_lossless_two_rows :
    let m : Mat ℝ := .ofRows [[2, 1], [1, 3]]
    let x : Vec ℝ := .ofList [1, -1]
    m.IsSquare ∧ m.IsSymmetric ∧ m.Over x ∧ m.toSparse.toMat = m ∧ m.upperToSparse.mirror = m ∧
      m.upperToSparse.symmetricForm x = 3 := by
  intro m x
  have hsquare : m.IsSquare := rfl
  have hsymm : m.IsSymmetric := by
    refine (Mat.isMirrored_ofFn rfl fun i (hi : i < 2) j (hj : j < 2) => ?_).symmetric
    interval_cases i <;> interval_cases j <;> rfl
  have hx : m.Over x := ⟨rfl, rfl⟩
  have hform : m.form x = 3 := by
    rw [Mat.form_eq_sum hx]
    norm_num [m, x, Mat.ofRows, Vec.ofList, Vec.size, Vec.entry, sum_range_succ]
  obtain ⟨hback, htriangle⟩ := sparse_conversions_lossless.2 m
  obtain ⟨hmirror, hsame⟩ := (htriangle hsquare).2 hsymm
  exact ⟨hsquare, hsymm, hx, hback, hmirror, (hsame x hx).trans hform⟩

end WholeBody
