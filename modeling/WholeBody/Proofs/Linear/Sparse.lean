import Mathlib
import WholeBody.Linear.Sparse
import WholeBody.Proofs.Linear.Form

/-!
# Reading compressed columns back

The column starts cut the stored entries into the columns that were put in, and within a column an
entry is found by its row. What is not stored is zero.

## Main statements

* `SparseMat.column_ofColumns` — the columns of a matrix are those it was made of.
* `Mat.lookup_storedColumn` — the entries of a column that are stored.
* `Mat.mirror_upperToSparse` — a symmetric matrix is known by its upper triangle.
-/

namespace WholeBody

namespace SparseMat

variable {α : Type}

/-- The entry in a row and a column, zero where none is stored. -/
def entry [Zero α] (m : SparseMat α) (i j : Nat) : α := ((m.column j).lookup i).getD 0

/-- The symmetric matrix of which the upper triangle is stored. -/
def mirror [Zero α] (m : SparseMat α) : Mat α :=
  .ofFn m.rows m.cols fun i j => if i ≤ j then m.entry i j else m.entry j i

theorem getD_partialSums {n : Nat} {ks : List Nat} {j : Nat} (hj : j ≤ ks.length) :
    (partialSums n ks).getD j 0 = n + (ks.take j).sum := by
  induction ks generalizing n j with
  | nil =>
    obtain rfl := Nat.le_zero.1 hj
    rfl
  | cons k rest ih =>
    cases j with
    | zero => rfl
    | succ j =>
      rw [partialSums, List.getD_cons_succ, ih (Nat.le_of_succ_le_succ hj), List.take_succ_cons,
        List.sum_cons, Nat.add_assoc]

/-- The columns of a matrix are those it was made of. -/
theorem column_ofColumns (rows : Nat) {columns : List (List (Nat × α))} {j : Nat}
    (hj : j < columns.length) : (ofColumns rows columns).column j = columns[j] := by
  have hstored : (ofColumns rows columns).rowIndex.zip (ofColumns rows columns).values =
      columns.flatten := by
    simp only [ofColumns, List.flatMap, ← List.map_flatten, List.zip_map']
    exact List.map_id _
  have hstart {i : Nat} (hi : i ≤ columns.length) : (ofColumns rows columns).colStart.getD i 0 =
      ((columns.map List.length).take i).sum := by
    refine (getD_partialSums ?_).trans (Nat.zero_add _)
    rwa [List.length_map]
  rw [column, hstored, hstart hj.le, hstart hj, ← List.drop_take]
  exact List.drop_take_succ_flatten_eq_getElem columns j hj

end SparseMat

namespace Mat

section Stored

variable {α : Type} [Scalar α] (m : Mat α)

/-- The entries of a column that are stored. -/
theorem lookup_storedColumn (count j i : Nat) : (m.storedColumn count j).lookup i =
    if i < count ∧ ¬ Scalar.IsZero (m.entry i j) then some (m.entry i j) else none := by
  induction count with
  | zero => simp [storedColumn]
  | succ n ih =>
    have hlast : m.storedColumn (n + 1) j = m.storedColumn n j ++
        (if Scalar.IsZero (m.entry n j) then [] else [(n, m.entry n j)]) := by
      rw [storedColumn, List.range_succ, List.filterMap_append]
      congr 1
      split <;> simp_all
    rw [hlast, List.lookup_append, ih]
    by_cases hi : i = n
    · subst hi
      rw [if_neg fun h => lt_irrefl _ h.1, Option.none_or]
      by_cases hzero : Scalar.IsZero (m.entry i j)
      · rw [if_pos hzero, if_neg fun h => h.2 hzero, List.lookup_nil]
      · rw [if_neg hzero, if_pos ⟨i.lt_succ_self, hzero⟩, List.lookup_cons_self]
    · have hother : (if Scalar.IsZero (m.entry n j) then [] else [(n, m.entry n j)]).lookup i =
          none := by
        split
        · rfl
        · rw [List.lookup_cons, beq_false_of_ne hi]
          rfl
      have hcount : i < n ↔ i < n + 1 := by omega
      simp only [hother, Option.or_none, hcount]

end Stored

variable {m : Mat ℝ}

/-- Reading a triangle back, within it. -/
theorem entry_upperToSparse {i j : ℕ} (hij : i ≤ j) (hi : i < m.rows) (hj : j < m.cols) :
    m.upperToSparse.entry i j = m.entry i j := by
  have hcolumn : m.upperToSparse.column j = m.storedColumn (Nat.min (j + 1) m.rows) j := by
    have hlength : j < ((List.range m.cols).map
        fun j => m.storedColumn (Nat.min (j + 1) m.rows) j).length := by
      rwa [List.length_map, List.length_range]
    rw [upperToSparse, SparseMat.column_ofColumns m.rows hlength, List.getElem_map,
      List.getElem_range]
  have hcount : i < Nat.min (j + 1) m.rows := lt_min (Nat.lt_succ_of_le hij) hi
  rw [SparseMat.entry, hcolumn, lookup_storedColumn]
  by_cases hzero : Scalar.IsZero (m.entry i j)
  · rw [if_neg fun h => h.2 hzero, Scalar.isZero_real.1 hzero]
    rfl
  · rw [if_pos ⟨hcount, hzero⟩]
    rfl

/-- A symmetric matrix is known by its upper triangle. -/
theorem mirror_upperToSparse (hsquare : m.IsSquare) (hsymm : m.IsSymmetric) :
    m.upperToSparse.mirror = m := by
  have hcols : m.upperToSparse.cols = m.cols := by
    rw [upperToSparse, SparseMat.ofColumns, List.length_map, List.length_range]
  have hrows : m.upperToSparse.rows = m.rows := rfl
  refine ext_entry rfl hcols fun i hi j hj => ?_
  simp only [SparseMat.mirror, rows_ofFn, cols_ofFn, hrows, hcols] at hi hj ⊢
  rw [entry_ofFn_of_lt hi hj]
  split
  · rename_i hij
    exact entry_upperToSparse hij hi hj
  · rename_i hji
    rw [entry_upperToSparse (le_of_not_ge hji) (hj.trans_eq hsquare.symm) (hi.trans_eq hsquare),
      hsymm]

end Mat

end WholeBody
