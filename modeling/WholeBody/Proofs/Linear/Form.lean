import Mathlib
import WholeBody.Proofs.Linear.Entry

/-!
# Quadratic forms

The form `xᵀ P x` of a matrix that is filled step by step: what each addition to the matrix adds to
the form.

## Main statements

* `Mat.adds_addBlock`, `Mat.adds_addDiagonal` — a block adds its own form, and a number on the
  diagonal adds that multiple of the squared length.
* `Mat.adds_foldl` — additions made one after the other.
* `Mat.form_add` — the square of a sum under a symmetric weight.
-/

namespace WholeBody

open Finset

namespace Mat

variable {P P' P'' b m k : Mat ℝ} {x v w : Vec ℝ} {c c' : ℝ}

/-- `xᵀ P x`. -/
noncomputable def form (P : Mat ℝ) (x : Vec ℝ) : ℝ := x.dot (P.mulVec x)

/-- One row and one column for each entry of a vector. -/
def Over (P : Mat ℝ) (x : Vec ℝ) : Prop := P.rows = x.size ∧ P.cols = x.size

/-- Every entry equals its mirror image. -/
def IsSymmetric (m : Mat ℝ) : Prop := ∀ i j, m.entry i j = m.entry j i

theorem isSymmetric_identity (n : ℕ) : (identity n).IsSymmetric := by
  intro i j
  rw [identity, diagonal, entry_ofFn, entry_ofFn]
  by_cases hij : i = j
  · rw [hij]
  · rw [if_neg hij, if_neg (Ne.symm hij), ite_self, ite_self]

/-- Symmetric, with a form that is nowhere negative. -/
def IsPosSemidef (m : Mat ℝ) : Prop := m.IsSymmetric ∧ ∀ v : Vec ℝ, m.Over v → 0 ≤ m.form v

theorem isPosSemidef_identity (n : ℕ) : (identity n).IsPosSemidef := by
  refine ⟨isSymmetric_identity n, fun v hv => ?_⟩
  rw [form, Vec.dot_eq_sum]
  refine sum_nonneg fun i hi => ?_
  have hi : i < n := (mem_range.1 hi).trans_eq hv.1.symm
  rw [mulVec_identity hi]
  exact mul_self_nonneg _

theorem over_zeros : (zeros x.size x.size).Over x := ⟨rfl, rfl⟩

theorem form_eq_sum (h : P.Over x) : P.form x =
    ∑ i ∈ range x.size, ∑ j ∈ range x.size, x.entry i * (P.entry i j * x.entry j) := by
  rw [form, Vec.dot_eq_sum]
  refine sum_congr rfl fun i _ => ?_
  rw [entry_mulVec, h.2, mul_sum]

theorem form_zeros : (zeros x.size x.size).form x = 0 := by
  rw [form_eq_sum over_zeros]
  exact sum_eq_zero fun i _ => sum_eq_zero fun j _ => by rw [entry_zeros, zero_mul, mul_zero]

theorem form_eq_zero (hx : ∀ i, x.entry i = 0) : P.form x = 0 := by
  rw [form, Vec.dot_eq_sum]
  exact sum_eq_zero fun i _ => by rw [hx, zero_mul]

/-! ### Additions -/

/-- `P'` is as large as `P`, and its form at `x` is larger by `c`. -/
structure Adds (P P' : Mat ℝ) (x : Vec ℝ) (c : ℝ) : Prop where
  rows : P'.rows = P.rows
  cols : P'.cols = P.cols
  form : P'.form x = P.form x + c

theorem Adds.over (h : P.Adds P' x c) (hP : P.Over x) : P'.Over x :=
  ⟨h.rows.trans hP.1, h.cols.trans hP.2⟩

theorem adds_zero : P.Adds P x 0 := ⟨rfl, rfl, (add_zero _).symm⟩

theorem Adds.trans (h : P.Adds P' x c) (h' : P'.Adds P'' x c') : P.Adds P'' x (c + c') := by
  refine ⟨h'.rows.trans h.rows, h'.cols.trans h.cols, ?_⟩
  rw [h'.form, h.form, add_assoc]

/-- Additions made one after the other. -/
theorem adds_foldl {τ : Type} {step : Mat ℝ → τ → Mat ℝ} {gain : τ → ℝ} {es : List τ}
    (hstep : ∀ P : Mat ℝ, P.Over x → ∀ e ∈ es, P.Adds (step P e) x (gain e)) (hP : P.Over x) :
    P.Adds (es.foldl step P) x (es.map gain).sum := by
  induction es generalizing P with
  | nil => exact adds_zero
  | cons e es ih =>
    have hfirst := hstep P hP e List.mem_cons_self
    have hrest := ih (fun Q hQ e' he' => hstep Q hQ e' (List.mem_cons_of_mem _ he'))
      (hfirst.over hP)
    rw [List.map_cons, List.sum_cons]
    exact hfirst.trans hrest

/-- A matrix whose entries are those of `P` and of `Q` together. -/
theorem adds_of_entry {Q : ℕ → ℕ → ℝ} (hP : P.Over x) (hP' : P'.Over x)
    (hentry : ∀ i < x.size, ∀ j < x.size, P'.entry i j = P.entry i j + Q i j) :
    P.Adds P' x (∑ i ∈ range x.size, ∑ j ∈ range x.size, x.entry i * (Q i j * x.entry j)) := by
  refine ⟨hP'.1.trans hP.1.symm, hP'.2.trans hP.2.symm, ?_⟩
  rw [form_eq_sum hP, form_eq_sum hP', ← sum_add_distrib]
  refine sum_congr rfl fun i hi => ?_
  rw [← sum_add_distrib]
  refine sum_congr rfl fun j hj => ?_
  rw [hentry i (mem_range.1 hi) j (mem_range.1 hj)]
  ring

/-- A square block in the corner adds its form at the first entries. -/
theorem adds_addBlock (hP : P.Over x) (hsquare : b.IsSquare) (hfit : b.cols ≤ x.size) :
    P.Adds (P.addBlock 0 0 b) x (b.form (x.slice 0 b.cols)) := by
  have hentry : ∀ i < x.size, ∀ j < x.size,
      (P.addBlock 0 0 b).entry i j = P.entry i j + b.entry i j :=
    fun i hi j hj => entry_addBlock_corner (hP.1 ▸ hi) (hP.2 ▸ hj)
  have hform : b.form (x.slice 0 b.cols) =
      ∑ i ∈ range x.size, ∑ j ∈ range x.size, x.entry i * (b.entry i j * x.entry j) := by
    have hover : b.Over (x.slice 0 b.cols) := ⟨hsquare.trans (Vec.size_slice _ _ _).symm,
      (Vec.size_slice _ _ _).symm⟩
    rw [form_eq_sum hover, Vec.size_slice]
    rw [eventually_constant_sum (N := b.cols) (fun i hi => ?_) hfit]
    · refine sum_congr rfl fun i hi => ?_
      rw [eventually_constant_sum (N := b.cols) (fun j hj => ?_) hfit]
      · refine sum_congr rfl fun j hj => ?_
        rw [Vec.entry_slice (mem_range.1 hi), Vec.entry_slice (mem_range.1 hj), Nat.zero_add,
          Nat.zero_add]
      · rw [entry_of_cols_le hj, zero_mul, mul_zero]
    · refine sum_eq_zero fun j _ => ?_
      rw [entry_of_rows_le (hsquare.le.trans hi), zero_mul, mul_zero]
  rw [hform]
  exact adds_of_entry hP hP hentry

/-- A number on a part of the diagonal adds that multiple of the squared length of the part. -/
theorem adds_addDiagonal {start len : ℕ} (hP : P.Over x) (hfit : start + len ≤ x.size) :
    P.Adds (P.addDiagonal start len c) x
      (c * (x.slice start len).dot (x.slice start len)) := by
  let D (i j : ℕ) : ℝ := if i = j ∧ start ≤ i ∧ i < start + len then c else 0
  have hentry : ∀ i < x.size, ∀ j < x.size,
      (P.addDiagonal start len c).entry i j = P.entry i j + D i j := by
    intro i hi j hj
    rw [addDiagonal, entry_ofFn_of_lt (hP.1 ▸ hi) (hP.2 ▸ hj)]
    by_cases hin : i = j ∧ start ≤ i ∧ i < start + len
    · simp only [D, if_pos hin]
    · simp only [D, if_neg hin, add_zero]
  have hrow : ∀ i ∈ range x.size, ∑ j ∈ range x.size, x.entry i * (D i j * x.entry j) =
      if start ≤ i ∧ i < start + len then c * (x.entry i * x.entry i) else 0 := by
    intro i hi
    rw [sum_eq_single_of_mem i hi]
    · by_cases hin : start ≤ i ∧ i < start + len
      · simp only [D, if_pos hin, true_and]
        ring
      · simp only [D, if_neg hin, true_and]
        ring
    · intro j _ hji
      simp only [D, if_neg (fun h : i = j ∧ _ => hji h.1.symm)]
      ring
  have hsquares : c * (x.slice start len).dot (x.slice start len) =
      ∑ i ∈ range x.size, ∑ j ∈ range x.size, x.entry i * (D i j * x.entry j) := by
    rw [sum_congr rfl hrow, sum_window hfit fun i => c * (x.entry i * x.entry i), ← mul_sum,
      Vec.dot_eq_sum, Vec.size_slice]
    congr 1
    refine sum_congr rfl fun l hl => ?_
    rw [Vec.entry_slice (mem_range.1 hl)]
  rw [hsquares]
  exact adds_of_entry hP hP hentry

/-! ### Products -/

theorem mulVec_mul : (m * k).mulVec x = m.mulVec (k.mulVec x) := by
  have hrows : (m * k).rows = m.rows := rfl
  refine Vec.ext_entry (by rw [size_mulVec, size_mulVec, hrows]) fun i _ => ?_
  rw [entry_mulVec, entry_mulVec]
  simp only [entry_mul, entry_mulVec, sum_mul, mul_sum]
  rw [sum_comm]
  exact sum_congr rfl fun l _ => sum_congr rfl fun j _ => mul_assoc _ _ _

/-- A square matrix that has an inverse. -/
def IsInvertible (m : Mat ℝ) : Prop :=
  m.IsSquare ∧ ∃ k : Mat ℝ, m * k = identity m.rows ∧ k * m = identity m.rows

/-- An invertible matrix takes every value. -/
theorem IsInvertible.exists_mulVec_eq (h : m.IsInvertible) (hv : v.size = m.rows) :
    ∃ x : Vec ℝ, x.size = m.cols ∧ m.mulVec x = v := by
  obtain ⟨hsquare, k, hright, hleft⟩ := h
  have hrows := congrArg Mat.rows hleft
  change k.rows = m.rows at hrows
  refine ⟨k.mulVec v, ?_, ?_⟩
  · rw [size_mulVec, hrows, hsquare]
  · rw [← mulVec_mul, hright]
    refine Vec.ext_entry ((size_mulVec _ _).trans hv.symm) fun i hi => ?_
    rw [size_mulVec] at hi
    exact mulVec_identity hi

theorem isInvertible_scalarMatrix (n : ℕ) {c : ℝ} (hc : c ≠ 0) :
    (scalarMatrix n c).IsInvertible := by
  have hentry (c : ℝ) (i j : ℕ) (hi : i < n) :
      (scalarMatrix n c).entry i j = if i = j then c else 0 := by
    rw [scalarMatrix, entry_ofFn]
    by_cases hij : i = j
    · simp [← hij, hi]
    · simp [hij]
  have hproduct {a b : ℝ} (hab : a * b = 1) :
      scalarMatrix n a * scalarMatrix n b = identity n := by
    refine ext_entry rfl rfl fun i (hi : i < n) j _ => ?_
    have hsum : ∀ l ∈ range n, (scalarMatrix n a).entry i l * (scalarMatrix n b).entry l j =
        if i = l then a * (if l = j then b else 0) else 0 := by
      intro l hl
      rw [hentry a i l hi, hentry b l j (mem_range.1 hl), ite_mul, zero_mul]
    rw [entry_mul, identity, entry_diagonal _ hi]
    refine (sum_congr rfl hsum).trans ?_
    rw [sum_ite_eq, if_pos (mem_range.2 hi), mul_ite, mul_zero, hab]
  exact ⟨rfl, scalarMatrix n c⁻¹, hproduct (mul_inv_cancel₀ hc), hproduct (inv_mul_cancel₀ hc)⟩

theorem dot_mulVec_transpose (hv : v.size = m.cols) :
    v.dot (m.transpose.mulVec w) = (m.mulVec v).dot w := by
  have hcols : m.transpose.cols = m.rows := rfl
  rw [Vec.dot_eq_sum, Vec.dot_eq_sum, size_mulVec]
  simp only [entry_mulVec, entry_transpose, hcols, hv, mul_sum, sum_mul]
  rw [sum_comm]
  exact sum_congr rfl fun l _ => sum_congr rfl fun j _ => by ring

theorem dot_mulVec_smul : v.dot ((c • m).mulVec w) = c * v.dot (m.mulVec w) := by
  have hcols : (c • m).cols = m.cols := rfl
  rw [Vec.dot_eq_sum, Vec.dot_eq_sum, mul_sum]
  refine sum_congr rfl fun i _ => ?_
  simp only [entry_mulVec, entry_smul, hcols, mul_sum]
  exact sum_congr rfl fun j _ => by ring

/-- A symmetric matrix can be moved to the other side of a product. -/
theorem IsSymmetric.dot_mulVec (h : m.IsSymmetric) (hm : m.Over v) (hw : m.Over w) :
    v.dot (m.mulVec w) = w.dot (m.mulVec v) := by
  have hsize : v.size = w.size := hm.1.symm.trans hw.1
  rw [Vec.dot_eq_sum, Vec.dot_eq_sum]
  simp only [entry_mulVec, hm.2, mul_sum, ← hsize]
  rw [sum_comm]
  refine sum_congr rfl fun i _ => sum_congr rfl fun j _ => ?_
  rw [h j i]
  ring

/-- The square of a sum. -/
theorem form_add (h : m.IsSymmetric) (hv : m.Over v) (hw : m.Over w) :
    m.form (v + w) = m.form v + 2 * v.dot (m.mulVec w) + m.form w := by
  have hsize : w.size = v.size := hw.1.symm.trans hv.1
  have hsum (i : ℕ) : (v + w).entry i = v.entry i + w.entry i := Vec.entry_add hsize.le
  have hmul (i : ℕ) :
      (m.mulVec (v + w)).entry i = (m.mulVec v).entry i + (m.mulVec w).entry i := by
    simp only [entry_mulVec, hsum, mul_add, sum_add_distrib]
  have hexpand : m.form (v + w) =
      v.dot (m.mulVec v) + v.dot (m.mulVec w) + (w.dot (m.mulVec v) + w.dot (m.mulVec w)) := by
    simp only [form, Vec.dot_eq_sum, Vec.size_add, hsize, hsum, hmul, ← sum_add_distrib]
    exact sum_congr rfl fun i _ => by ring
  rw [hexpand, h.dot_mulVec hw hv, form, form]
  ring

end Mat

end WholeBody
