import Mathlib
import WholeBody.Proofs.Linear.Symmetric

/-!
# Positive definite matrices

A square matrix of any size is a matrix over a finite type of indices, so what is known of the
latter holds of the former. A positive definite matrix takes no vector but zero to zero, so its
determinant is not zero, and it has an inverse.

## Main definitions

* `Mat.toMatrix`, `Mat.ofMatrix` — matrices over a finite type of indices, and back.
* `Mat3.IsPosDef` — positive definite matrices of three rows.

## Main statements

* `Mat.isInvertible_of_det_ne_zero` — the inverse of a matrix.
* `Mat.IsPosDef.isInvertible` — positive definite matrices.
-/

namespace WholeBody

open Finset

namespace Mat

variable {m k : Mat ℝ} {n : ℕ}

/-! ### Matrices over a finite type -/

/-- The first rows and columns, over a finite type of indices. -/
def toMatrix (m : Mat ℝ) (n : ℕ) : Matrix (Fin n) (Fin n) ℝ := .of fun i j => m.entry i j

/-- The matrix with the given entries. -/
def ofMatrix (A : Matrix (Fin n) (Fin n) ℝ) : Mat ℝ :=
  ofFn n n fun i j => if h : i < n ∧ j < n then A ⟨i, h.1⟩ ⟨j, h.2⟩ else 0

theorem toMatrix_ofMatrix (A : Matrix (Fin n) (Fin n) ℝ) : (ofMatrix A).toMatrix n = A := by
  ext i j
  rw [toMatrix, Matrix.of_apply, ofMatrix, entry_ofFn_of_lt i.isLt j.isLt, dif_pos ⟨i.isLt, j.isLt⟩]

theorem toMatrix_mul (hcols : m.cols = n) : (m * k).toMatrix n = m.toMatrix n * k.toMatrix n := by
  ext i j
  rw [toMatrix, Matrix.of_apply, entry_mul, hcols, Matrix.mul_apply, sum_range]
  rfl

theorem toMatrix_identity : (identity n).toMatrix n = 1 := by
  ext i j
  rw [toMatrix, Matrix.of_apply, identity, entry_diagonal _ i.isLt, Matrix.one_apply]
  exact if_congr Fin.val_inj rfl rfl

/-- Square matrices of one size with the same entries are equal. -/
theorem eq_of_toMatrix_eq (n : ℕ) (hm : m.rows = n ∧ m.cols = n) (hk : k.rows = n ∧ k.cols = n)
    (h : m.toMatrix n = k.toMatrix n) : m = k := by
  refine ext_entry (hm.1.trans hk.1.symm) (hm.2.trans hk.2.symm) fun i hi j hj => ?_
  exact congrFun (congrFun h ⟨i, hm.1 ▸ hi⟩) ⟨j, hm.2 ▸ hj⟩

/-! ### Inverses -/

theorem isInvertible_of_det_ne_zero (hrows : m.rows = n) (hcols : m.cols = n)
    (hdet : (m.toMatrix n).det ≠ 0) : m.IsInvertible := by
  let A := m.toMatrix n
  let k := ofMatrix A⁻¹
  have hunit : IsUnit A.det := isUnit_iff_ne_zero.2 hdet
  have hk : k.toMatrix n = A⁻¹ := toMatrix_ofMatrix _
  have hsize : k.cols = n := rfl
  have hright : m * k = identity n := by
    refine eq_of_toMatrix_eq n ⟨hrows, rfl⟩ ⟨rfl, rfl⟩ ?_
    rw [toMatrix_mul hcols, hk, toMatrix_identity]
    exact A.mul_nonsing_inv hunit
  have hleft : k * m = identity n := by
    refine eq_of_toMatrix_eq n ⟨rfl, hcols⟩ ⟨rfl, rfl⟩ ?_
    rw [toMatrix_mul hsize, hk, toMatrix_identity]
    exact A.nonsing_inv_mul hunit
  exact ⟨hrows.trans hcols.symm, k, hrows ▸ hright, hrows ▸ hleft⟩

/-- A positive definite matrix has an inverse. -/
theorem IsPosDef.isInvertible (h : m.IsPosDef) (hm : m.IsSquare) : m.IsInvertible := by
  apply isInvertible_of_det_ne_zero rfl hm.symm
  intro hdet
  -- Otherwise some vector that is not zero is taken to zero, and the form is zero there.
  obtain ⟨x, hx, hzero⟩ := Matrix.exists_mulVec_eq_zero_iff.2 hdet
  obtain ⟨i, hi⟩ := Function.ne_iff.1 hx
  let v : Vec ℝ := .ofFn m.rows fun i => if h : i < m.rows then x ⟨i, h⟩ else 0
  have hentry (i : Fin m.rows) : v.entry i = x i := by
    rw [Vec.entry_ofFn_of_lt i.isLt, dif_pos i.isLt]
  have hsize : v.size = m.rows := Vec.size_ofFn _ _
  have hover : m.Over v := ⟨hsize.symm, hm.symm.trans hsize.symm⟩
  have hproduct (i : Fin m.rows) : (m.mulVec v).entry i = 0 := by
    rw [entry_mulVec, ← hm, sum_range]
    simp only [hentry]
    exact congrFun hzero i
  have hform : m.form v = 0 := by
    rw [form, Vec.dot_eq_sum, hsize, sum_range]
    exact sum_eq_zero fun i _ => by rw [hproduct, mul_zero]
  have hpos := h.2 v hover ⟨i, by rwa [hentry]⟩
  exact hpos.ne' hform

end Mat

namespace Mat3

/-- Equal to its mirror image, with a form that is positive except at zero. -/
structure IsPosDef (m : Mat3 ℝ) : Prop where
  symmetric : m.transpose = m
  form_pos : ∀ v : Vec3 ℝ, v ≠ 0 → 0 < v.dot (m.mulVec v)

theorem IsPosDef.form_nonneg {m : Mat3 ℝ} (h : m.IsPosDef) (v : Vec3 ℝ) :
    0 ≤ v.dot (m.mulVec v) := by
  by_cases hv : v = 0
  · rw [hv]
    simp [Vec3.dot_eq, Vec3.zero_def]
  · exact (h.form_pos v hv).le

/-- The mirror image of a matrix is that of its entries. -/
theorem isSymmetric_toMat {m : Mat3 ℝ} (h : m.transpose = m) : m.toMat.IsSymmetric := by
  have hxy : m.row₂.x = m.row₁.y := congrArg (·.row₁.y) h
  have hxz : m.row₃.x = m.row₁.z := congrArg (·.row₁.z) h
  have hyz : m.row₃.y = m.row₂.z := congrArg (·.row₂.z) h
  refine (Mat.isMirrored_ofFn rfl fun i hi j hj => ?_).symmetric
  interval_cases i <;> interval_cases j <;> simp [row, Vec3.component, hxy, hxz, hyz]

end Mat3

end WholeBody
