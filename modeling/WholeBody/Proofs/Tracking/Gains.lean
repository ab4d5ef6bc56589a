import Mathlib
import WholeBody.Proofs.Linear.Eigenvalue
import WholeBody.Proofs.Linear.Magnitude
import WholeBody.Proofs.Linear.Symmetric
import WholeBody.Proofs.Tracking.Evaluation

/-!
# Checks of gains and weights

A matrix is checked by its size, its entries, its mirror image and its least eigenvalue. In exact
arithmetic the last check is one of the quadratic form: the symmetric matrices that pass are those
whose form is nowhere negative, up to the tolerance.

## Main definitions

* `Spectrum.Exact` — least eigenvalues without rounding.

## Main statements

* `FeedbackGains.validateMatrix_eq_ok_iff_form` — the check of a symmetric matrix.
* `validateMatrix_decides_posSemidef` — what the checks decide.
-/

namespace WholeBody

/-- Symmetric matrices have a least eigenvalue, and it is the one that is told. -/
def Spectrum.Exact [Spectrum ℝ] : Prop := ∀ m : Mat ℝ, m.IsSquare → m.IsSymmetric → 0 < m.rows →
  IsLeast {μ | m.IsEigenvalue μ} (Spectrum.leastEigenvalue m)

/-- The infimum of the eigenvalues. -/
@[reducible] noncomputable def Spectrum.ofInfimum : Spectrum ℝ :=
  ⟨fun m => sInf {μ | m.IsEigenvalue μ}⟩

theorem Spectrum.exact_ofInfimum : @Spectrum.Exact Spectrum.ofInfimum := by
  intro m hsquare hm hpos
  obtain ⟨μ, hμ⟩ := hm.exists_isLeast_eigenvalue hsquare hpos
  change IsLeast _ (sInf _)
  rwa [hμ.csInf_eq]

namespace FeedbackGains

/-! ### The checks -/

theorem validateMatrix_eq_asymmetric {α : Type} [Scalar α] [Spectrum α] {name : String}
    {role : MatrixRole} {m : Mat α} {n : ℕ} (hm : m.IsSize n) (hfinite : m.allFinite = true)
    (h : tolerance * magnitude m < m.asymmetry) :
    validateMatrix name role m n = Attempt.fail (.asymmetricMatrix name role) := by
  have hshape : ¬ (m.rows ≠ n ∨ m.cols ≠ n) := by simp [hm.1, hm.2]
  rw [validateMatrix, if_neg hshape, if_neg (Bool.not_eq_false _ ▸ hfinite), if_pos h]
  rfl

/-! ### Exact arithmetic -/

variable {m : Mat ℝ} {n : ℕ} {c : ℝ}

theorem tolerance_eq : (tolerance : ℝ) = 1 / 10 ^ 9 := by
  norm_num [tolerance, Scalar.ofDecimal_real]

theorem tolerance_pos : (0 : ℝ) < tolerance := by norm_num [tolerance_eq]

theorem one_le_magnitude : 1 ≤ magnitude m := le_max_right _ _

theorem margin_nonneg : 0 ≤ tolerance * magnitude m :=
  mul_nonneg tolerance_pos.le (zero_le_one.trans one_le_magnitude)

/-- The size that entries are compared with is one or the largest magnitude of an entry. -/
theorem isLeast_magnitude (hm : m.IsSize n) :
    IsLeast {s | 1 ≤ s ∧ ∀ i < n, ∀ j < n, |m.entry i j| ≤ s} (magnitude m) := by
  obtain ⟨rfl, hcols⟩ := hm
  have hbound {s : ℝ} (hs : 1 ≤ s) :
      magnitude m ≤ s ↔ ∀ i < m.rows, ∀ j < m.rows, |m.entry i j| ≤ s := by
    calc max m.maxAbs 1 ≤ s ↔ m.maxAbs ≤ s := by rw [max_le_iff, and_iff_left hs]
      _ ↔ _ := by rw [Mat.maxAbs_le_iff (zero_le_one.trans hs), hcols]
  exact ⟨⟨one_le_magnitude, (hbound one_le_magnitude).1 le_rfl⟩, fun s hs => (hbound hs.1).2 hs.2⟩

theorem lt_asymmetry_iff (hm : m.IsSize n) : tolerance * magnitude m < m.asymmetry ↔
    ∃ i < n, ∃ j < n, tolerance * magnitude m < |m.entry i j - m.entry j i| := by
  obtain ⟨rfl, hcols⟩ := hm
  rw [← not_le, Mat.asymmetry_le_iff margin_nonneg, hcols]
  simp only [not_forall, not_le, exists_prop]

variable [Spectrum ℝ] {name : String} {role : MatrixRole}

theorem validateMatrix_eq_ok_iff_eigenvalue (hm : m.IsSize n) (hn : 0 < n) (hsymm : m.IsSymmetric) :
    validateMatrix name role m n = .ok () ↔
      -tolerance * magnitude m ≤ Spectrum.leastEigenvalue m := by
  have hasymmetry : ¬ tolerance * magnitude m < m.asymmetry := by
    rw [lt_asymmetry_iff hm]
    rintro ⟨i, -, j, -, hlt⟩
    rw [hsymm i j, sub_self, abs_zero] at hlt
    exact hlt.not_ge margin_nonneg
  have hfinite : m.allFinite = true := by simp [Mat.allFinite]
  rw [validateMatrix_eq_ok_iff, and_iff_right hm, and_iff_right hfinite, and_iff_right hasymmetry,
    and_iff_right hn, not_lt]

/-- A symmetric matrix of the right size passes when its least eigenvalue is not negative. -/
theorem validateMatrix_eq_ok (hm : m.IsSize n) (hn : 0 < n) (hsymm : m.IsSymmetric)
    (heigenvalue : 0 ≤ Spectrum.leastEigenvalue m) : validateMatrix name role m n = .ok () := by
  refine (validateMatrix_eq_ok_iff_eigenvalue hm hn hsymm).2 (le_trans ?_ heigenvalue)
  rw [neg_mul, neg_nonpos]
  exact margin_nonneg

/-- A symmetric matrix passes when its form is not below the tolerance. -/
theorem validateMatrix_eq_ok_iff_form (hexact : Spectrum.Exact) (hm : m.IsSize n) (hn : 0 < n)
    (hsymm : m.IsSymmetric) : validateMatrix name role m n = .ok () ↔
      ∀ x : Vec ℝ, x.size = n → -tolerance * magnitude m * x.dot x ≤ m.form x := by
  obtain ⟨rfl, hcols⟩ := hm
  have hover {x : Vec ℝ} : m.Over x ↔ x.size = m.rows :=
    ⟨fun hx => hx.1.symm, fun hx => ⟨hx.symm, hcols.trans hx.symm⟩⟩
  rw [validateMatrix_eq_ok_iff_eigenvalue ⟨rfl, hcols⟩ hn hsymm,
    hsymm.le_least_iff hcols.symm (hexact m hcols.symm hsymm hn)]
  simp only [hover]

/-- Nonnegative multiples of a positive semidefinite matrix pass. -/
theorem validateMatrix_smul_eq_ok (hexact : Spectrum.Exact) (hm : m.IsSize n) (hn : 0 < n)
    (hpsd : m.IsPosSemidef) (hc : 0 ≤ c) : validateMatrix name role (c • m) n = .ok () := by
  have hscaled : (c • m).IsPosSemidef := hpsd.smul hc
  have hsize : (c • m).IsSize n := hm
  refine (validateMatrix_eq_ok_iff_form hexact hsize hn hscaled.1).2 fun x hx => ?_
  have hx : (c • m).Over x := ⟨hsize.1.trans hx.symm, hsize.2.trans hx.symm⟩
  refine le_trans ?_ (hscaled.2 x hx)
  rw [neg_mul, neg_mul, neg_nonpos]
  refine mul_nonneg margin_nonneg ?_
  rw [Vec.dot_eq_sum]
  exact Finset.sum_nonneg fun i _ => mul_self_nonneg _

end FeedbackGains

/-- Symmetric matrices pass exactly when their form is nowhere below the tolerance. Matrices that
are further from their mirror image are refused as asymmetric, whatever their eigenvalues. Positive
semidefinite ones pass with every factor that is not negative. -/
theorem validateMatrix_decides_posSemidef [Spectrum ℝ] {m : Mat ℝ} {n : ℕ} (hn : 0 < n)
    (hm : m.IsSize n) (name : String) (role : MatrixRole) :
    ∃ scale, IsLeast {s | 1 ≤ s ∧ ∀ i < n, ∀ j < n, |m.entry i j| ≤ s} scale ∧
      ((∃ i < n, ∃ j < n, 1 / 10 ^ 9 * scale < |m.entry i j - m.entry j i|) →
        FeedbackGains.validateMatrix name role m n =
          .error (.error (.asymmetricMatrix name role))) ∧
      (Spectrum.Exact →
        (m.IsSymmetric → (FeedbackGains.validateMatrix name role m n = .ok () ↔
          ∀ x : Vec ℝ, x.size = n → -(1 / 10 ^ 9) * scale * x.dot x ≤ m.form x)) ∧
        (m.IsPosSemidef → ∀ c : ℝ, 0 ≤ c →
          FeedbackGains.validateMatrix name role (c • m) n = .ok ())) := by
  have hfinite : m.allFinite = true := by simp [Mat.allFinite]
  refine ⟨FeedbackGains.magnitude m, FeedbackGains.isLeast_magnitude hm, fun hasymmetry => ?_,
    fun hexact => ⟨fun hsymm => ?_, fun hpsd c hc => ?_⟩⟩
  · rw [← FeedbackGains.tolerance_eq, ← FeedbackGains.lt_asymmetry_iff hm] at hasymmetry
    exact FeedbackGains.validateMatrix_eq_asymmetric hm hfinite hasymmetry
  · rw [← FeedbackGains.tolerance_eq]
    exact FeedbackGains.validateMatrix_eq_ok_iff_form hexact hm hn hsymm
  · exact FeedbackGains.validateMatrix_smul_eq_ok hexact hm hn hpsd hc

/-- A diagonal weight with an entry at the tolerance passes, one with an entry below does not. -/
theorem validateMatrix_decides_posSemidef_edge :
    let _ : Spectrum ℝ := .ofInfimum
    let edge (ε : ℝ) : Mat ℝ := .ofFn 2 2 fun i j => if i = j then if i = 0 then 1 else -ε else 0
    Spectrum.Exact ∧
      FeedbackGains.validateMatrix "feet" .weight (edge (1 / 10 ^ 9)) 2 = .ok () ∧
      FeedbackGains.validateMatrix "feet" .weight (edge (2 / 10 ^ 9)) 2 ≠ .ok () := by
  intro _ edge
  have hsymm (ε : ℝ) : (edge ε).IsSymmetric :=
    (Mat.isMirrored_ofFn rfl fun i _ j _ => by
      by_cases hij : i = j
      · rw [hij]
      · rw [if_neg hij, if_neg (Ne.symm hij)]).symmetric
  have hform {ε : ℝ} {x : Vec ℝ} (hx : x.size = 2) :
      (edge ε).form x = x.entry 0 * x.entry 0 - ε * (x.entry 1 * x.entry 1) := by
    rw [Mat.form_eq_sum ⟨hx.symm, hx.symm⟩, hx]
    simp [Finset.sum_range_succ, edge, Mat.entry_ofFn]
    ring
  have hdot {x : Vec ℝ} (hx : x.size = 2) :
      x.dot x = x.entry 0 * x.entry 0 + x.entry 1 * x.entry 1 := by
    rw [Vec.dot_eq_sum, hx, Finset.sum_range_succ, Finset.sum_range_one]
  -- no entry is above one, so the tolerance is not scaled
  have hdecides {ε : ℝ} (hε : |ε| ≤ 1) :
      FeedbackGains.validateMatrix "feet" .weight (edge ε) 2 = .ok () ↔
        ∀ x : Vec ℝ, x.size = 2 → -(1 / 10 ^ 9) * 1 * x.dot x ≤ (edge ε).form x := by
    obtain ⟨scale, hscale, -, hdecides⟩ :=
      validateMatrix_decides_posSemidef two_pos (⟨rfl, rfl⟩ : (edge ε).IsSize 2) "feet" .weight
    obtain rfl : scale = 1 := by
      refine le_antisymm (hscale.2 ⟨le_rfl, fun i hi j hj => ?_⟩) hscale.1.1
      interval_cases i <;> interval_cases j <;> simp [edge, Mat.entry_ofFn, hε]
    exact (hdecides Spectrum.exact_ofInfimum).1 (hsymm ε)
  refine ⟨Spectrum.exact_ofInfimum, (hdecides (by norm_num [abs_of_pos])).2 fun x hx => ?_,
    fun haccepted => ?_⟩
  · rw [hform hx, hdot hx]
    linarith [mul_self_nonneg (x.entry 0)]
  · have hbelow := (hdecides (by norm_num [abs_of_pos])).1 haccepted (.ofList [0, 1]) rfl
    have hfirst : (Vec.ofList [(0 : ℝ), 1]).entry 0 = 0 := rfl
    have hsecond : (Vec.ofList [(0 : ℝ), 1]).entry 1 = 1 := rfl
    rw [hform rfl, hdot rfl, hfirst, hsecond] at hbelow
    norm_num at hbelow

end WholeBody
