import Mathlib
import WholeBody.Linear.Vec3
import WholeBody.Proofs.Scalar.Real

/-!
# Entries over the reals

Every operation on vectors and matrices is known by the entries of its result. Entries outside the
shape are zero, so most of these equations hold for all indices.

## Main statements

* `Vec.dot_eq_sum`, `Mat.entry_mulVec` — products as finite sums.
* `Vec.dot_addAt` — adding a vector at some place adds its product with that part.
* `Mat.mulVec_setBlock` — writing a block into columns that are still zero adds the product of the
  block with its part of the vector.
-/

namespace WholeBody

/-! ### Lists of entries -/

section Lists

variable {α : Type} [Scalar α]

theorem Vec.toList_eq_map (v : Vec α) : v.toList = (List.range v.size).map v.entry := by
  refine List.ext_getElem (by simp) fun i hi _ => ?_
  rw [Vec.length_toList, Vec.size] at hi
  simp [Vec.toList, Vec.entry, hi]

theorem Vec.forall_mem_toList {P : α → Prop} {v : Vec α} :
    (∀ y ∈ v.toList, P y) ↔ ∀ i < v.size, P (v.entry i) := by
  simp only [toList_eq_map, List.forall_mem_map, List.mem_range]

theorem Mat.forall_mem_toList {P : α → Prop} {m : Mat α} :
    (∀ y ∈ m.toList, P y) ↔ ∀ i < m.rows, ∀ j < m.cols, P (m.entry i j) := by
  simp only [toList, List.mem_flatMap, List.mem_map, List.mem_range]
  constructor
  · intro h i hi j hj
    exact h _ ⟨j, hj, i, hi, rfl⟩
  · rintro h _ ⟨j, hj, i, hi, rfl⟩
    exact h i hi j hj

theorem Mat.row_eq_map (m : Mat α) (i : ℕ) : m.row i = (List.range m.cols).map (m.entry i) :=
  List.ext_getElem (by simp [Mat.row]) fun _ _ _ => by simp [Mat.row]

theorem Mat.toRows_eq_map (m : Mat α) : m.toRows = (List.range m.rows).map m.row :=
  List.ext_getElem (by simp [Mat.toRows]) fun _ _ _ => by simp [Mat.toRows]

end Lists

/-! ### Sums -/

/-- A sum over a range of a function that vanishes outside a window of it. -/
theorem sum_window {n start len : ℕ} (h : start + len ≤ n) (f : ℕ → ℝ) :
    (∑ i ∈ Finset.range n, if start ≤ i ∧ i < start + len then f i else 0) =
      ∑ k ∈ Finset.range len, f (start + k) := by
  have hset : {i ∈ Finset.range n | start ≤ i ∧ i < start + len} =
      Finset.Ico start (start + len) := by
    ext i
    simp only [Finset.mem_filter, Finset.mem_range, Finset.mem_Ico]
    omega
  rw [← Finset.sum_filter, hset, Finset.sum_Ico_eq_sum_range, Nat.add_sub_cancel_left]

namespace Vec

variable {v w : Vec ℝ} {i : ℕ}

@[simp] theorem entry_zeros (n : ℕ) : (zeros n : Vec ℝ).entry i = 0 := by
  rw [zeros, entry_ofFn]
  exact ite_self _

@[simp] theorem entry_neg : (-v).entry i = -v.entry i := by
  rw [neg_def, entry_ofFn]
  split
  · rfl
  · rename_i hi
    rw [entry_of_size_le (Nat.le_of_not_lt hi)]
    exact neg_zero.symm

theorem entry_add (h : w.size ≤ v.size) : (v + w).entry i = v.entry i + w.entry i := by
  rw [add_def, entry_ofFn]
  split
  · rfl
  · rename_i hi
    rw [entry_of_size_le (Nat.le_of_not_lt hi), entry_of_size_le (by omega : w.size ≤ i)]
    exact (add_zero _).symm

theorem entry_sub (h : w.size ≤ v.size) : (v - w).entry i = v.entry i - w.entry i := by
  rw [sub_def, entry_ofFn]
  split
  · rfl
  · rename_i hi
    rw [entry_of_size_le (Nat.le_of_not_lt hi), entry_of_size_le (by omega : w.size ≤ i)]
    exact (sub_zero _).symm

@[simp] theorem entry_smul (c : ℝ) : (c • v).entry i = c * v.entry i := by
  rw [smul_def, entry_ofFn]
  split
  · rfl
  · rename_i hi
    rw [entry_of_size_le (Nat.le_of_not_lt hi)]
    exact (mul_zero _).symm

theorem entry_slice {start len : ℕ} (h : i < len) :
    (v.slice start len).entry i = v.entry (start + i) :=
  entry_ofFn_of_lt h

/-- A block that has been written is read back. -/
theorem slice_eq {start : ℕ} (h : ∀ i < w.size, v.entry (start + i) = w.entry i) :
    v.slice start w.size = w := by
  refine ext_entry (size_slice _ _ _) fun i hi => ?_
  rw [size_slice] at hi
  rw [entry_slice hi, h i hi]

theorem dot_eq_sum : v.dot w = ∑ i ∈ Finset.range v.size, v.entry i * w.entry i :=
  Scalar.sum_real _ _

theorem dot_add (h : w.size ≤ v.size) (u : Vec ℝ) : u.dot (v + w) = u.dot v + u.dot w := by
  simp only [dot_eq_sum, entry_add h, mul_add, Finset.sum_add_distrib]

theorem zeros_dot (n : ℕ) (x : Vec ℝ) : (zeros n).dot x = 0 := by
  rw [dot_eq_sum]
  exact Finset.sum_eq_zero fun i _ => by rw [entry_zeros, zero_mul]

theorem norm_slice_two (i : ℕ) :
    (v.slice i 2).norm = √(v.entry i ^ 2 + v.entry (i + 1) ^ 2) := by
  rw [norm, dot_eq_sum, size_slice, Finset.sum_range_succ, Finset.sum_range_one,
    entry_slice (by decide), entry_slice (by decide)]
  simp [sq]

theorem dot_comm (h : v.size = w.size) : v.dot w = w.dot v := by
  rw [dot_eq_sum, dot_eq_sum, h]
  exact Finset.sum_congr rfl fun i _ => mul_comm _ _

theorem smul_dot (c : ℝ) : (c • v).dot w = c * v.dot w := by
  rw [dot_eq_sum, dot_eq_sum, size_smul, Finset.mul_sum]
  exact Finset.sum_congr rfl fun i _ => by rw [entry_smul, mul_assoc]

theorem entry_addAt {start : ℕ} (h : start + w.size ≤ v.size) :
    (v.addAt start w).entry i =
      v.entry i + if start ≤ i ∧ i < start + w.size then w.entry (i - start) else 0 := by
  rw [addAt, entry_ofFn]
  by_cases hw : start ≤ i ∧ i < start + w.size
  · rw [if_pos (by omega), if_pos hw, if_pos hw]
  · rw [if_neg hw, if_neg hw, add_zero]
    split
    · rfl
    · rename_i hi
      exact (entry_of_size_le (Nat.le_of_not_lt hi)).symm

theorem entry_addAt_front (hi : i < v.size) :
    (v.addAt 0 w).entry i = v.entry i + w.entry i := by
  rw [addAt, entry_ofFn_of_lt hi, Nat.zero_add, Nat.sub_zero]
  by_cases hw : i < w.size
  · rw [if_pos ⟨i.zero_le, hw⟩]
  · rw [if_neg (by omega), entry_of_size_le (Nat.le_of_not_lt hw), add_zero]

theorem dot_addAt {start : ℕ} (h : start + w.size ≤ v.size) (x : Vec ℝ) :
    (v.addAt start w).dot x = v.dot x + w.dot (x.slice start w.size) := by
  rw [dot_eq_sum, dot_eq_sum, dot_eq_sum, size_addAt]
  simp only [entry_addAt h, add_mul, Finset.sum_add_distrib, ite_mul, zero_mul]
  rw [sum_window h fun i => w.entry (i - start) * x.entry i]
  congr 1
  refine Finset.sum_congr rfl fun k hk => ?_
  rw [entry_slice (Finset.mem_range.1 hk), Nat.add_sub_cancel_left]

end Vec

namespace Mat

variable {m k b : Mat ℝ} {i j : ℕ} {x : Vec ℝ}

theorem entry_of_not_lt (h : ¬ (i < m.rows ∧ j < m.cols)) : m.entry i j = 0 := by
  by_cases hi : i < m.rows
  · exact entry_of_cols_le (Nat.le_of_not_lt fun hj => h ⟨hi, hj⟩)
  · exact entry_of_rows_le (Nat.le_of_not_lt hi)

@[simp] theorem entry_zeros (r c : ℕ) : (zeros r c : Mat ℝ).entry i j = 0 := by
  rw [zeros, entry_ofFn]
  exact ite_self _

@[simp] theorem entry_transpose : m.transpose.entry i j = m.entry j i := by
  rw [transpose, entry_ofFn]
  split
  · rfl
  · rename_i h
    exact (entry_of_not_lt fun h' => h h'.symm).symm

@[simp] theorem entry_neg : (-m).entry i j = -m.entry i j := by
  rw [neg_def, entry_ofFn]
  split
  · rfl
  · rename_i h
    rw [entry_of_not_lt h]
    exact neg_zero.symm

@[simp] theorem entry_smul (c : ℝ) : (c • m).entry i j = c * m.entry i j := by
  rw [smul_def, entry_ofFn]
  split
  · rfl
  · rename_i h
    rw [entry_of_not_lt h]
    exact (mul_zero _).symm

@[simp] theorem rows_addBlock (m b : Mat ℝ) (i j : ℕ) : (m.addBlock i j b).rows = m.rows := rfl

@[simp] theorem cols_addBlock (m b : Mat ℝ) (i j : ℕ) : (m.addBlock i j b).cols = m.cols := rfl

/-- A block is added in the corner. -/
theorem entry_addBlock_corner (hi : i < m.rows) (hj : j < m.cols) :
    (m.addBlock 0 0 b).entry i j = m.entry i j + b.entry i j := by
  rw [addBlock, entry_ofFn_of_lt hi hj]
  by_cases hin : i < b.rows ∧ j < b.cols
  · rw [if_pos (by omega), Nat.sub_zero, Nat.sub_zero]
  · rw [if_neg (by omega), entry_of_not_lt hin, add_zero]

theorem entry_mul :
    (m * k).entry i j = ∑ l ∈ Finset.range m.cols, m.entry i l * k.entry l j := by
  rw [mul_def, entry_ofFn]
  split
  · exact Scalar.sum_real _ _
  · rename_i h
    refine (Finset.sum_eq_zero fun l _ => ?_).symm
    by_cases hi : i < m.rows
    · rw [entry_of_cols_le (m := k) (Nat.le_of_not_lt fun hj => h ⟨hi, hj⟩), mul_zero]
    · rw [entry_of_rows_le (Nat.le_of_not_lt hi), zero_mul]

theorem entry_mulVec :
    (m.mulVec x).entry i = ∑ j ∈ Finset.range m.cols, m.entry i j * x.entry j := by
  rw [mulVec, Vec.entry_ofFn]
  split
  · exact Scalar.sum_real _ _
  · rename_i hi
    refine (Finset.sum_eq_zero fun j _ => ?_).symm
    rw [entry_of_rows_le (Nat.le_of_not_lt hi), zero_mul]

@[simp] theorem mulVec_zeros (r c : ℕ) : ((zeros r c : Mat ℝ).mulVec x).entry i = 0 := by
  simp [entry_mulVec]

@[simp] theorem mulVec_neg : ((-m).mulVec x).entry i = -(m.mulVec x).entry i := by
  rw [entry_mulVec, entry_mulVec, ← Finset.sum_neg_distrib]
  exact Finset.sum_congr rfl fun j _ => by rw [entry_neg, neg_mul]

theorem entry_diagonal {n : ℕ} (d : ℕ → ℝ) (hi : i < n) :
    (diagonal n d).entry i j = if i = j then d i else 0 := by
  rw [diagonal, entry_ofFn]
  by_cases hj : i = j
  · subst hj
    rw [if_pos ⟨hi, hi⟩]
  · rw [if_neg hj]
    exact ite_self _

theorem mulVec_identity {n : ℕ} (hi : i < n) : ((identity n).mulVec x).entry i = x.entry i := by
  rw [entry_mulVec, identity]
  simp only [entry_diagonal _ hi, ite_mul, zero_mul]
  exact (Finset.sum_ite_eq _ _ _).trans ((if_pos (Finset.mem_range.2 hi)).trans (one_mul _))

/-- A row that is zero outside a window is multiplied with that part of the vector. -/
theorem entry_mulVec_of_window {start len : ℕ} (hstop : start + len ≤ m.cols)
    (hzero : ∀ j, ¬ (start ≤ j ∧ j < start + len) → m.entry i j = 0) :
    (m.mulVec x).entry i =
      ∑ l ∈ Finset.range len, m.entry i (start + l) * x.entry (start + l) := by
  rw [entry_mulVec, ← sum_window hstop fun j => m.entry i j * x.entry j]
  refine Finset.sum_congr rfl fun j _ => ?_
  by_cases hj : start ≤ j ∧ j < start + len
  · rw [if_pos hj]
  · rw [if_neg hj, hzero j hj, zero_mul]

theorem mulVec_scalarMatrix {n : ℕ} (c : ℝ) (hi : i < n) :
    ((scalarMatrix n c).mulVec x).entry i = c * x.entry i := by
  have hzero (j : ℕ) (hj : ¬ (i ≤ j ∧ j < i + 1)) : (scalarMatrix n c).entry i j = 0 := by
    have hne : ¬ i = j := by omega
    simp [scalarMatrix, hne]
  have hcols : (scalarMatrix n c).cols = n := rfl
  rw [entry_mulVec_of_window (by omega) hzero, Finset.sum_range_one]
  simp [scalarMatrix, hi]

/-! ### Blocks -/

/-- All columns from a given one on are zero. -/
def ZeroFrom (m : Mat ℝ) (col : ℕ) : Prop := ∀ i j, col ≤ j → m.entry i j = 0

theorem zeroFrom_zeros (r c : ℕ) : (zeros r c : Mat ℝ).ZeroFrom 0 := fun _ _ _ => entry_zeros r c

theorem ZeroFrom.mono {a c : ℕ} (h : m.ZeroFrom a) (hac : a ≤ c) : m.ZeroFrom c :=
  fun i j hj => h i j (hac.trans hj)

theorem entry_setBlock {row col : ℕ} (hr : row + b.rows ≤ m.rows) (hc : col + b.cols ≤ m.cols) :
    (m.setBlock row col b).entry i j =
      if row ≤ i ∧ i < row + b.rows ∧ col ≤ j ∧ j < col + b.cols then
        b.entry (i - row) (j - col)
      else m.entry i j := by
  rw [setBlock, entry_ofFn]
  by_cases hw : row ≤ i ∧ i < row + b.rows ∧ col ≤ j ∧ j < col + b.cols
  · rw [if_pos (by omega)]
  · rw [if_neg hw]
    split
    · rfl
    · rename_i h
      exact (entry_of_not_lt h).symm

theorem ZeroFrom.setBlock {col : ℕ} (h : m.ZeroFrom col) (hr : b.rows ≤ m.rows)
    (hc : col + b.cols ≤ m.cols) : (m.setBlock 0 col b).ZeroFrom (col + b.cols) := by
  intro i j hj
  rw [entry_setBlock (by omega) hc, if_neg (by omega)]
  exact h i j (by omega)

/-- A block in columns that were zero contributes its product with its part of the vector. -/
theorem mulVec_setBlock {col : ℕ} (h : m.ZeroFrom col) (hr : b.rows ≤ m.rows)
    (hc : col + b.cols ≤ m.cols) :
    ((m.setBlock 0 col b).mulVec x).entry i =
      (m.mulVec x).entry i + (b.mulVec (x.slice col b.cols)).entry i := by
  have hentry (j : ℕ) : (m.setBlock 0 col b).entry i j =
      m.entry i j + if col ≤ j ∧ j < col + b.cols then b.entry i (j - col) else 0 := by
    rw [entry_setBlock (by omega) hc]
    by_cases hj : col ≤ j ∧ j < col + b.cols
    · rw [if_pos hj, h i j hj.1, zero_add (b.entry i (j - col))]
      by_cases hi : i < b.rows
      · rw [if_pos (by omega), Nat.sub_zero]
      · rw [if_neg (by omega), entry_of_rows_le (Nat.le_of_not_lt hi)]
    · rw [if_neg (by omega), if_neg hj, add_zero]
  simp only [entry_mulVec, hentry, add_mul, Finset.sum_add_distrib, ite_mul, zero_mul]
  congr 1
  refine (sum_window hc fun j => b.entry i (j - col) * x.entry j).trans ?_
  refine Finset.sum_congr rfl fun l hl => ?_
  rw [Nat.add_sub_cancel_left, Vec.entry_slice (Finset.mem_range.1 hl)]

end Mat

namespace Vec3

variable {v w : Vec3 ℝ}

@[simp] theorem entry_toVec (i : ℕ) : v.toVec.entry i = v.component i := by
  match i with
  | 0 | 1 | 2 => rfl
  | i + 3 => exact Vec.entry_of_size_le (by simp [toVec, toList])

theorem ext_component (h : ∀ k < 3, v.component k = w.component k) : v = w :=
  Vec3.ext (h 0 (by decide)) (h 1 (by decide)) (h 2 (by decide))

theorem component_add (i : ℕ) : (v + w).component i = v.component i + w.component i := by
  match i with
  | 0 | 1 | 2 => rfl
  | _ + 3 => exact (add_zero 0).symm

theorem component_zero (i : ℕ) : (0 : Vec3 ℝ).component i = 0 := by
  match i with
  | 0 | 1 | 2 | _ + 3 => rfl

theorem component_smul (c : ℝ) (i : ℕ) : (c • v).component i = c * v.component i := by
  match i with
  | 0 | 1 | 2 => rfl
  | _ + 3 => exact (mul_zero c).symm

theorem component_sum (vs : List (Vec3 ℝ)) (i : ℕ) :
    vs.sum.component i = (vs.map (·.component i)).sum := by
  induction vs with
  | nil => exact component_zero i
  | cons v vs ih => rw [List.sum_cons, component_add, ih, List.map_cons, List.sum_cons]

theorem dot_eq : v.dot w = v.x * w.x + v.y * w.y + v.z * w.z := rfl

theorem norm_vertical {h : ℝ} (hh : 0 ≤ h) : (⟨0, 0, h⟩ : Vec3 ℝ).norm = h := by
  simp [norm, dot_eq, hh]

theorem sum_component (w : Vec3 ℝ) :
    ∑ j ∈ Finset.range 3, v.component j * w.component j = v.dot w := by
  simp [Finset.sum_range_succ, component, dot_eq]

theorem neg_dot (v w : Vec3 ℝ) : (-v).dot w = -v.dot w := by
  simp only [neg_def, dot_eq]
  ring

/-- A matrix of three columns, given by its rows. -/
theorem entry_mulVec_ofFn {r i : ℕ} (row : ℕ → Vec3 ℝ) (v : Vec3 ℝ) (hi : i < r) :
    ((Mat.ofFn r 3 fun k j => (row k).component j).mulVec v.toVec).entry i = (row i).dot v := by
  rw [Mat.entry_mulVec, ← sum_component]
  refine Finset.sum_congr rfl fun j hj => ?_
  rw [Mat.entry_ofFn_of_lt hi (Finset.mem_range.1 hj), entry_toVec]

end Vec3

namespace Mat3

theorem mulVec_neg (m : Mat3 ℝ) (v : Vec3 ℝ) : (-m).mulVec v = -m.mulVec v := by
  simp only [mulVec, neg_def, Vec3.neg_def, Vec3.dot_eq, Vec3.mk.injEq]
  refine ⟨?_, ?_, ?_⟩ <;> ring

theorem entry_mulVec_toMat (m : Mat3 ℝ) (v : Vec3 ℝ) {i : ℕ} (hi : i < 3) :
    (m.toMat.mulVec v.toVec).entry i = (m.mulVec v).component i := by
  rw [toMat, Vec3.entry_mulVec_ofFn _ _ hi]
  match i, hi with
  | 0, _ | 1, _ | 2, _ => rfl

end Mat3

namespace Jacobian3

@[simp] theorem entry_toMat (jacobian : Jacobian3 ℝ) (i j : ℕ) :
    jacobian.toMat.entry i j = (jacobian.getD j 0).component i := by
  rw [toMat, Mat.entry_ofFn]
  split
  · rfl
  · rename_i h
    by_cases hi : i < 3
    · have hj : jacobian.length ≤ j := Nat.le_of_not_lt fun hj => h ⟨hi, hj⟩
      rw [List.getD_eq_default _ _ hj]
      match i, hi with
      | 0, _ | 1, _ | 2, _ => rfl
    · match i, hi with
      | i + 3, _ => rfl
      | 0, hi | 1, hi | 2, hi => exact absurd (by decide) hi

theorem getD_ofBlocks {cols : ℕ} (hcols : 6 ≤ cols) (linear angular : Mat3 ℝ) (j : ℕ) :
    (ofBlocks cols linear angular).getD j 0 =
      if j < 3 then linear.col j else if j < 6 then angular.col (j - 3) else 0 := by
  rw [ofBlocks, List.getD_eq_getElem?_getD, List.getElem?_ofFn]
  by_cases hj : j < cols
  · rw [dif_pos hj, Option.getD_some]
  · rw [dif_neg hj, if_neg (by omega), if_neg (by omega), Option.getD_none]

/-- A force acts along the columns of the Jacobian of its point. -/
theorem entry_mulVec_transpose (jacobian : Jacobian3 ℝ) (force : Vec3 ℝ) (j : ℕ) :
    (jacobian.toMat.transpose.mulVec force.toVec).entry j = (jacobian.getD j 0).dot force := by
  have hcols : jacobian.toMat.transpose.cols = 3 := rfl
  rw [Mat.entry_mulVec, hcols, ← Vec3.sum_component]
  refine Finset.sum_congr rfl fun i _ => ?_
  rw [Mat.entry_transpose, entry_toMat, Vec3.entry_toVec]

end Jacobian3

end WholeBody
