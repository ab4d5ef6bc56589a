import Mathlib
import WholeBody.Proofs.Linear.Form

/-!
# Symmetric matrices

Matrices that are filled step by step stay symmetric when every step is. The form of a leading block
is that of the whole matrix at vectors that are zero elsewhere.

## Main statements

* `Mat.IsMirrored.addBlock`, `Mat.IsMirrored.addDiagonal`, `Mat.IsMirrored.foldl` — additions.
* `Mat.form_leading` — the form of a leading block.
-/

namespace WholeBody

namespace Mat

variable {P b m : Mat ℝ}

/-- Square, and equal to its mirror image. -/
structure IsMirrored (m : Mat ℝ) : Prop where
  square : m.IsSquare
  symmetric : m.IsSymmetric

theorem isMirrored_zeros (n : ℕ) : (zeros n n : Mat ℝ).IsMirrored :=
  ⟨rfl, fun _ _ => by rw [entry_zeros, entry_zeros]⟩

/-- A matrix filled from a symmetric rule. -/
theorem isMirrored_ofFn {n k : ℕ} {f : ℕ → ℕ → ℝ} (hnk : n = k)
    (hf : ∀ i < n, ∀ j < n, f i j = f j i) : (ofFn n k f).IsMirrored := by
  subst hnk
  refine ⟨rfl, fun i j => ?_⟩
  rw [entry_ofFn, entry_ofFn]
  by_cases hij : i < n ∧ j < n
  · rw [if_pos hij, if_pos hij.symm, hf i hij.1 j hij.2]
  · rw [if_neg hij, if_neg fun hji => hij hji.symm]

theorem IsMirrored.addBlock (hP : P.IsMirrored) (hb : b.IsSymmetric) :
    (P.addBlock 0 0 b).IsMirrored := by
  refine ⟨hP.square, fun i j => ?_⟩
  by_cases hij : i < P.rows ∧ j < P.rows
  · have hcols : i < P.cols ∧ j < P.cols := hP.square ▸ hij
    rw [entry_addBlock_corner hij.1 hcols.2, entry_addBlock_corner hij.2 hcols.1, hP.symmetric i j,
      hb i j]
  · have hsquare : P.rows = P.cols := hP.square
    rw [entry_of_not_lt, entry_of_not_lt] <;> rw [rows_addBlock, cols_addBlock] <;> omega

theorem IsMirrored.addDiagonal (hP : P.IsMirrored) (start len : ℕ) (c : ℝ) :
    (P.addDiagonal start len c).IsMirrored := by
  refine isMirrored_ofFn hP.square fun i _ j _ => ?_
  by_cases hij : i = j
  · rw [hij]
  · rw [if_neg fun h => hij h.1, if_neg fun h => hij h.1.symm, hP.symmetric]

/-- Steps that keep a matrix symmetric, one after the other. -/
theorem IsMirrored.foldl {τ : Type} {step : Mat ℝ → τ → Mat ℝ} {es : List τ} (hP : P.IsMirrored)
    (hstep : ∀ P : Mat ℝ, P.IsMirrored → ∀ e ∈ es, (step P e).IsMirrored) :
    (es.foldl step P).IsMirrored :=
  List.foldlRecOn es step hP hstep

theorem isSymmetric_scalarMatrix (n : ℕ) (c : ℝ) : (scalarMatrix n c).IsSymmetric := by
  intro i j
  rw [scalarMatrix, entry_ofFn, entry_ofFn]
  by_cases hij : i = j
  · rw [hij]
  · rw [if_neg hij, if_neg (Ne.symm hij), zero_mul, ite_self, ite_self]

/-- A multiple of a positive semidefinite matrix. -/
theorem IsPosSemidef.smul (hm : m.IsPosSemidef) {c : ℝ} (hc : 0 ≤ c) :
    (c • m).IsPosSemidef := by
  refine ⟨fun i j => by rw [entry_smul, entry_smul, hm.1], fun v hv => ?_⟩
  rw [form, dot_mulVec_smul]
  exact mul_nonneg hc (hm.2 v hv)

/-! ### Leading blocks -/

/-- The first rows and columns. -/
def leading (m : Mat ℝ) (n : ℕ) : Mat ℝ := ofFn n n m.entry

/-- Symmetric, with a form that is positive except at zero. -/
def IsPosDef (m : Mat ℝ) : Prop :=
  m.IsSymmetric ∧ ∀ v : Vec ℝ, m.Over v → (∃ i, v.entry i ≠ 0) → 0 < m.form v

/-- The form of a leading block is that of the whole at a vector that is zero elsewhere. -/
theorem form_leading {v x : Vec ℝ} (hP : P.Over x) (hsize : v.size ≤ x.size)
    (hentry : ∀ i, x.entry i = v.entry i) : (P.leading v.size).form v = P.form x := by
  rw [form_eq_sum ⟨rfl, rfl⟩, form_eq_sum hP,
    Finset.eventually_constant_sum (N := v.size) (fun i hi => ?_) hsize]
  · refine Finset.sum_congr rfl fun i hi => ?_
    rw [Finset.eventually_constant_sum (N := v.size) (fun j hj => ?_) hsize]
    · refine Finset.sum_congr rfl fun j hj => ?_
      rw [leading, entry_ofFn_of_lt (Finset.mem_range.1 hi) (Finset.mem_range.1 hj), hentry, hentry]
    · rw [hentry j, Vec.entry_of_size_le hj, mul_zero, mul_zero]
  · refine Finset.sum_eq_zero fun j _ => ?_
    rw [hentry, Vec.entry_of_size_le hi, zero_mul]

end Mat

end WholeBody
