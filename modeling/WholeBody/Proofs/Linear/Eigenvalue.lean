import Mathlib
import WholeBody.Proofs.Linear.PosDef

/-!
# Eigenvalues

The eigenvalues of a symmetric matrix bound its quadratic form: the least one is the largest factor
of the squared length that the form never falls below.

## Main definitions

* `Mat.IsEigenvalue` — the numbers by which a matrix stretches vectors.

## Main statements

* `Mat.isEigenvalue_iff_mem_spectrum` — eigenvalues of a square matrix.
* `Mat.IsSymmetric.exists_isLeast_eigenvalue` — a symmetric matrix has a least eigenvalue.
* `Mat.IsSymmetric.le_least_iff` — the numbers up to the least eigenvalue.
-/

namespace WholeBody

open Finset

open scoped Matrix

/-! ### Vectors over a finite type -/

namespace Vec

variable {n : ℕ}

/-- The first entries, over a finite type of indices. -/
def coords (v : Vec ℝ) (n : ℕ) : Fin n → ℝ := fun i => v.entry i

/-- The vector with the given entries. -/
def ofCoords (x : Fin n → ℝ) : Vec ℝ := ofFn n fun i => if h : i < n then x ⟨i, h⟩ else 0

@[simp] theorem size_ofCoords (x : Fin n → ℝ) : (ofCoords x).size = n := size_ofFn _ _

@[simp] theorem coords_ofCoords (x : Fin n → ℝ) : (ofCoords x).coords n = x := by
  funext i
  rw [coords, ofCoords, entry_ofFn_of_lt i.isLt, dif_pos i.isLt]

theorem eq_of_coords_eq {v w : Vec ℝ} (hv : v.size = n) (hw : w.size = n)
    (h : v.coords n = w.coords n) : v = w :=
  ext_entry (hv.trans hw.symm) fun i hi => congrFun h ⟨i, hv ▸ hi⟩

theorem coords_ne_zero_iff {v : Vec ℝ} (hv : v.size = n) :
    v.coords n ≠ 0 ↔ ∃ i, v.entry i ≠ 0 := by
  rw [Function.ne_iff]
  constructor
  · rintro ⟨i, hi⟩
    exact ⟨i, hi⟩
  · rintro ⟨i, hi⟩
    have hlt : i < n := hv ▸ Nat.lt_of_not_le fun h => hi (entry_of_size_le h)
    exact ⟨⟨i, hlt⟩, hi⟩

theorem coords_smul (c : ℝ) (v : Vec ℝ) : (c • v).coords n = c • v.coords n :=
  funext fun _ => entry_smul c

theorem dot_eq_dotProduct {v w : Vec ℝ} (hv : v.size = n) :
    v.dot w = v.coords n ⬝ᵥ w.coords n := by
  rw [dot_eq_sum, hv, sum_range]
  rfl

end Vec

namespace Mat

variable {m : Mat ℝ} {n : ℕ} {μ c : ℝ}

theorem coords_mulVec (hcols : m.cols = n) (v : Vec ℝ) :
    (m.mulVec v).coords n = m.toMatrix n *ᵥ v.coords n := by
  funext i
  rw [Vec.coords, entry_mulVec, hcols, sum_range]
  rfl

theorem isHermitian_toMatrix (hm : m.IsSymmetric) (n : ℕ) : (m.toMatrix n).IsHermitian :=
  Matrix.IsHermitian.ext fun i j => hm j i

/-! ### Eigenvalues -/

/-- Some vector that is not zero is multiplied by the number. -/
def IsEigenvalue (m : Mat ℝ) (μ : ℝ) : Prop :=
  ∃ v : Vec ℝ, m.Over v ∧ (∃ i, v.entry i ≠ 0) ∧ m.mulVec v = μ • v

theorem isEigenvalue_iff_mem_spectrum (hrows : m.rows = n) (hcols : m.cols = n) :
    m.IsEigenvalue μ ↔ μ ∈ spectrum ℝ (m.toMatrix n) := by
  rw [spectrum.mem_iff, Matrix.isUnit_iff_isUnit_det, isUnit_iff_ne_zero, not_not,
    ← Matrix.exists_mulVec_eq_zero_iff]
  have hkernel (x : Fin n → ℝ) :
      (algebraMap ℝ (Matrix (Fin n) (Fin n) ℝ) μ - m.toMatrix n) *ᵥ x = 0 ↔
        m.toMatrix n *ᵥ x = μ • x := by
    rw [Matrix.sub_mulVec, Algebra.algebraMap_eq_smul_one, Matrix.smul_mulVec, Matrix.one_mulVec,
      sub_eq_zero, eq_comm]
  simp only [hkernel]
  constructor
  · rintro ⟨v, hv, hne, hstretch⟩
    have hsize : v.size = n := hv.1.symm.trans hrows
    refine ⟨v.coords n, (Vec.coords_ne_zero_iff hsize).2 hne, ?_⟩
    rw [← coords_mulVec hcols, hstretch, Vec.coords_smul]
  · rintro ⟨x, hne, hstretch⟩
    have hsize : (Vec.ofCoords x).size = n := Vec.size_ofCoords x
    refine ⟨.ofCoords x, ⟨hrows.trans hsize.symm, hcols.trans hsize.symm⟩,
      (Vec.coords_ne_zero_iff hsize).1 (by rwa [Vec.coords_ofCoords]), ?_⟩
    refine Vec.eq_of_coords_eq ((size_mulVec _ _).trans hrows) ((Vec.size_smul _ _).trans hsize) ?_
    rw [coords_mulVec hcols, Vec.coords_smul, Vec.coords_ofCoords, hstretch]

/-- A symmetric matrix has a least eigenvalue. -/
theorem IsSymmetric.exists_isLeast_eigenvalue (hm : m.IsSymmetric) (hsquare : m.IsSquare)
    (hpos : 0 < m.rows) : ∃ μ, IsLeast {μ | m.IsEigenvalue μ} μ := by
  have hA := isHermitian_toMatrix hm m.rows
  have hset : {μ | m.IsEigenvalue μ} = Set.range hA.eigenvalues := by
    rw [← hA.spectrum_real_eq_range_eigenvalues]
    exact Set.ext fun μ => isEigenvalue_iff_mem_spectrum rfl hsquare.symm
  have : Nonempty (Fin m.rows) := ⟨⟨0, hpos⟩⟩
  obtain ⟨i, hi⟩ := Finite.exists_min hA.eigenvalues
  rw [hset]
  exact ⟨hA.eigenvalues i, Set.mem_range_self i, Set.forall_mem_range.2 hi⟩

/-- No number above the least eigenvalue bounds the form from below. -/
theorem le_of_forall_le_form {μ : ℝ} (hμ : m.IsEigenvalue μ)
    (h : ∀ x, m.Over x → c * x.dot x ≤ m.form x) : c ≤ μ := by
  obtain ⟨v, hv, ⟨i, hi⟩, hstretch⟩ := hμ
  have hpos : 0 < v.dot v := by
    have hlt : i < v.size := Nat.lt_of_not_le fun hle => hi (Vec.entry_of_size_le hle)
    rw [Vec.dot_eq_sum]
    exact sum_pos' (fun j _ => mul_self_nonneg _) ⟨i, mem_range.2 hlt, mul_self_pos.2 hi⟩
  have hform : m.form v = μ * v.dot v := by
    rw [form, hstretch, Vec.dot_comm (Vec.size_smul _ _).symm, Vec.smul_dot]
  exact le_of_mul_le_mul_right (hform ▸ h v hv) hpos

/-- The numbers up to the least eigenvalue are those whose multiple of the squared length bounds the
form from below, in all directions. -/
theorem IsSymmetric.le_least_iff (hm : m.IsSymmetric) (hsquare : m.IsSquare)
    (hμ : IsLeast {μ | m.IsEigenvalue μ} μ) :
    c ≤ μ ↔ ∀ x, m.Over x → c * x.dot x ≤ m.form x := by
  refine ⟨fun hc x hx => ?_, le_of_forall_le_form hμ.1⟩
  have hA := isHermitian_toMatrix hm m.rows
  -- without `c` on its diagonal the matrix has no negative eigenvalue
  have hshifted : (m.toMatrix m.rows - algebraMap ℝ _ c).PosSemidef := by
    rw [Matrix.posSemidef_iff_isHermitian_and_spectrum_nonneg]
    refine ⟨hA.sub ?_, ?_⟩
    · rw [Matrix.IsHermitian, Matrix.algebraMap_eq_diagonal]
      exact Matrix.diagonal_conjTranspose _
    · rw [← spectrum.sub_singleton_eq]
      rintro _ ⟨ν, hν, _, rfl, rfl⟩
      have hν := (isEigenvalue_iff_mem_spectrum rfl hsquare.symm).2 hν
      exact sub_nonneg.2 (hc.trans (hμ.2 hν))
  have hsize : x.size = m.rows := hx.1.symm
  have hvalue : x.coords m.rows ⬝ᵥ ((m.toMatrix m.rows - algebraMap ℝ _ c) *ᵥ x.coords m.rows) =
      m.form x - c * x.dot x := by
    rw [Matrix.sub_mulVec, dotProduct_sub, Algebra.algebraMap_eq_smul_one, Matrix.smul_mulVec,
      Matrix.one_mulVec, dotProduct_smul, ← coords_mulVec hsquare.symm, smul_eq_mul, form,
      Vec.dot_eq_dotProduct hsize, Vec.dot_eq_dotProduct hsize]
  have hnonneg := hshifted.dotProduct_mulVec_nonneg (x.coords m.rows)
  rw [star_trivial, hvalue] at hnonneg
  exact sub_nonneg.1 hnonneg

end Mat

end WholeBody
