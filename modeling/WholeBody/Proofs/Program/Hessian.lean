import Mathlib
import WholeBody.Proofs.Linear.Sparse
import WholeBody.Proofs.Linear.Symmetric
import WholeBody.Proofs.Program.Uniqueness
import WholeBody.Proofs.Robot.Serving
import WholeBody.Proofs.Tracking.Weights

/-!
# The Hessian

Every addition to the Hessian keeps it symmetric, and none makes its form smaller. So the solver,
which reads no more than the upper triangle, has the whole matrix, and the accelerations are
determined however few of them the tasks are about.

## Main statements

* `TickData.isMirrored_hessian` — the Hessian is square and symmetric.
* `TickData.isPosDef_leading_hessian` — the block of the accelerations is positive definite.
* `hessian_convex` — the Hessian of every program that is built.
-/

namespace WholeBody

/-- A vector that is not zero has a positive length. -/
theorem Vec.normSq_pos {v : Vec ℝ} {i : ℕ} (h : v.entry i ≠ 0) : 0 < v.normSq := by
  have hi : i < v.size := lt_of_not_ge fun hi => h (entry_of_size_le hi)
  rw [normSq, dot_eq_sum]
  exact Finset.sum_pos' (fun i _ => mul_self_nonneg _)
    ⟨i, Finset.mem_range.2 hi, mul_self_pos.2 h⟩

/-! ### Shares of the Hessian -/

section Shares

variable {P : Mat ℝ} (hP : P.IsMirrored)

/-- `Jᵀ W J` is symmetric when the weight is. -/
theorem TaskTerm.isSymmetric_hessian {t : TaskTerm ℝ} {n : ℕ} (hfits : t.Fits n)
    (hweight : t.weight.IsSymmetric) : t.hessian.IsSymmetric := by
  have hentry (i j : ℕ) : t.hessian.entry i j = 2 * ∑ l ∈ Finset.range t.jacobian.rows,
      ∑ k ∈ Finset.range t.jacobian.rows,
        t.jacobian.entry k i * t.weight.entry k l * t.jacobian.entry l j := by
    have hinner : t.jacobian.transpose.cols = t.jacobian.rows := rfl
    have houter : t.weightedJacobian.cols = t.jacobian.rows := hfits.2.1
    rw [hessian, Mat.entry_smul, Mat.entry_mul, houter, Nat.cast_ofNat]
    congr 1
    refine Finset.sum_congr rfl fun l _ => ?_
    rw [weightedJacobian, Mat.entry_mul, hinner, Finset.sum_mul]
    exact Finset.sum_congr rfl fun k _ => by rw [Mat.entry_transpose]
  intro i j
  rw [hentry, hentry, Finset.sum_comm]
  refine congrArg _ (Finset.sum_congr rfl fun k _ => Finset.sum_congr rfl fun l _ => ?_)
  rw [hweight k l]
  ring

include hP

theorem isMirrored_addPenalty (block : Span) (w : ℝ) : (addPenalty P block w).IsMirrored :=
  hP.addDiagonal _ _ _

theorem isMirrored_addRegularization (block : Span) (w : ℝ) :
    (addRegularization P block w).IsMirrored := by
  rw [addRegularization]
  split
  · exact hP
  · exact isMirrored_addPenalty hP block w

theorem isMirrored_addSlackPenalty (slack : Span) (mode : ConstraintMode ℝ) :
    (TickData.addSlackPenalty P slack mode).IsMirrored := by
  cases mode with
  | hard => exact hP
  | soft w => exact isMirrored_addPenalty hP slack w

end Shares

namespace TickData

variable {d : TickData ℝ} {a : Assembler ℝ} {terms : List (TaskTerm ℝ)}

/-- The Hessian is square and symmetric. -/
theorem isMirrored_hessian (hfits : a.CostFits terms (d.layout a.settings))
    (hweights : ∀ t ∈ terms, t.weight.IsSymmetric) : (d.hessian a terms).IsMirrored := by
  have htasks := (Mat.isMirrored_zeros (d.layout a.settings).numVariables).foldl
    fun P hP t ht => hP.addBlock (TaskTerm.isSymmetric_hessian (hfits.1 t ht) (hweights t ht))
  have haccel := isMirrored_addRegularization htasks (d.layout a.settings).accelerations
    a.settings.accelerationRegularization
  have hjoints := haccel.foldl fun P hP (e : ℕ × ℝ) (_ : e ∈ a.jointCosts) =>
    isMirrored_addPenalty hP (.ofSize e.1 1) e.2
  have hinputs := isMirrored_addRegularization hjoints (d.layout a.settings).inputs
    a.settings.inputRegularization
  have hforces := isMirrored_addRegularization hinputs (d.layout a.settings).contactForces
    a.settings.contactForceRegularization
  have hcontact := isMirrored_addSlackPenalty hforces (d.layout a.settings).contactSlack
    a.settings.contactMode
  exact isMirrored_addSlackPenalty hcontact _ _

section Bound

variable (hs : a.settings.Valid) (hfits : a.CostFits terms (d.layout a.settings))
  (hcosts : ∀ c ∈ a.jointCosts, 0 ≤ c.2) (hweights : ∀ t ∈ terms, t.weight.IsPosSemidef)

include hs hfits hcosts hweights

/-- The Hessian is at least what the accelerations are regularized with. -/
theorem accelerations_le_form {x : Vec ℝ} (hx : x.size = (d.layout a.settings).numVariables) :
    2 * a.settings.accelerationRegularization * (d.layout a.settings).accelerations.normSq x ≤
      (d.hessian a terms).form x := by
  have hshares := regularization_le_form hfits hcosts hweights hx
  obtain ⟨-, hinput, hforce, hcontact, hloop⟩ := hs.penalties_nonneg (d.layout a.settings) x
  linarith

/-- The block of the accelerations is positive definite. -/
theorem isPosDef_leading_hessian : ((d.hessian a terms).leading d.numVelocities).IsPosDef := by
  let l := d.layout a.settings
  have hmirrored := isMirrored_hessian hfits fun t ht => (hweights t ht).1
  refine ⟨(Mat.isMirrored_ofFn rfl fun i _ j _ => hmirrored.symmetric i j).symmetric, ?_⟩
  rintro v ⟨hv, -⟩ ⟨i, hi⟩
  have hv : d.numVelocities = v.size := hv
  -- The form of the block at `v` is that of the Hessian at `v` with zeros behind it.
  let x : Vec ℝ := .ofFn l.numVariables v.entry
  have hsize : x.size = l.numVariables := Vec.size_ofFn _ _
  obtain ⟨hrows, hcols⟩ := shape_hessian (d := d) a terms
  have hover : (d.hessian a terms).Over x := ⟨hrows.trans hsize.symm, hcols.trans hsize.symm⟩
  have hfit : v.size ≤ l.numVariables := by
    have hstop := d.stop_le_numVariables a.settings (t := l.accelerations) (by simp [l])
    rwa [d.layout_accelerations, hv] at hstop
  have hentry (i : ℕ) : x.entry i = v.entry i := by
    rw [Vec.entry_ofFn, ite_eq_left_iff]
    exact fun hi => (Vec.entry_of_size_le (hfit.trans (not_lt.1 hi))).symm
  have hslice : l.accelerations.normSq x = v.normSq := by
    rw [Span.normSq, layout_accelerations, Span.size, Nat.sub_zero, hv]
    refine congrArg Vec.normSq (Vec.slice_eq fun i _ => ?_)
    rw [Nat.zero_add, hentry]
  have hbound := accelerations_le_form hs hfits hcosts hweights hsize
  rw [hslice] at hbound
  rw [hv, Mat.form_leading hover (hfit.trans hsize.ge) hentry]
  have hpos := Scalar.isPositive_real.1 hs.accelerationRegularization
  exact (mul_pos (mul_pos two_pos hpos) (Vec.normSq_pos hi)).trans_le hbound

end Bound

end TickData

/-! ### Programs that are built -/

/-- The Hessian of a program that is built from validated settings and from objectives with positive
semidefinite weights is symmetric, its form is at least twice the regularized squared length of the
accelerations, so that their block is positive definite, and its upper triangle is all there is to
know about it. -/
theorem hessian_convex [Spectrum ℝ] {settings : Settings ℝ}
    (hsettings : settings.validate = .ok ()) {robot model : RobotModel ℝ} {a : Assembler ℝ}
    (hcreate : Assembler.create settings robot = .ok a) {objectives : List (TrackingObjective ℝ)}
    (hmade : ∀ o ∈ objectives, o.Made ∧ o.weight.IsPosSemidef) {state : RobotState ℝ}
    {phase : PhaseId} {timeInPhase : ℝ} {samples : String → Option (TrajectorySample ℝ)}
    {results : List (Option (TaskTerm ℝ))}
    (hresults : List.Forall₂ (fun o result => o.evaluate model state phase timeInPhase
      (samples o.name) = .ok result) objectives results)
    {contacts : List (ContactPoint ℝ)} {p : ConeProgram ℝ}
    (hbuild : a.build model state (results.flatMap Option.toList) contacts = .ok p) :
    let v := p.layout.accelerations
    p.P.IsSymmetric ∧
      (∀ x : Vec ℝ, x.size = p.numVariables →
        2 * settings.accelerationRegularization * v.normSq x ≤ p.P.form x) ∧
      (v.start = 0 ∧ v.size = model.numVelocities ∧ (p.P.leading v.size).IsPosDef) ∧
      p.P.upperToSparse.mirror = p.P := by
  intro v
  have hweights := TrackingObjective.isPosSemidef_of_evaluate_eq_ok hmade hresults
  obtain ⟨d, hd, hfits, -, -, rfl⟩ := Assembler.of_build_eq_ok hbuild
  have hvalid := Settings.validate_eq_ok_iff.1 hsettings
  have hcosts := Assembler.jointCosts_nonneg hvalid hcreate
  obtain ⟨rfl, -⟩ := Assembler.of_create_eq_ok hcreate
  have hmirrored := TickData.isMirrored_hessian hfits fun t ht => (hweights t ht).1
  have hnv := (TickData.of_gather_eq_ok hd).2.numVelocities_eq
  have hstart : v.start = 0 := congrArg Span.start (d.layout_accelerations a.settings)
  have hsize : v.size = d.numVelocities := d.size_accelerations a.settings
  refine ⟨hmirrored.symmetric, fun x hx => ?_, ⟨hstart, hsize.trans hnv, ?_⟩,
    Mat.mirror_upperToSparse hmirrored.square hmirrored.symmetric⟩
  · exact TickData.accelerations_le_form hvalid hfits hcosts hweights
      (hx.trans (TickData.numVariables_program a _))
  · rw [hsize]
    exact TickData.isPosDef_leading_hessian hvalid hfits hcosts hweights

/-- A point mass on its left foot, with an objective that counts twice in that phase and one that is
bound in another phase. The least eigenvalue of a multiple of the identity is its first entry. -/
theorem hessian_convex_pointMass :
    let _ : Spectrum ℝ := ⟨fun m => m.entry 0 0⟩
    let r : PointMass ℝ := ⟨"mass", 1, 10⟩
    let state : RobotState ℝ := ⟨.zeros 3, .zeros 3⟩
    let foot : ContactPoint ℝ := ⟨"foot", ⟨"mass", 0⟩, .unitZ, none, none⟩
    let kind (phase : PhaseId) : ObjectiveKind ℝ :=
      .centerOfMass (.perPhase (SortedMap.empty.insert phase ()))
    let samples (_ : String) : Option (TrajectorySample ℝ) :=
      some ⟨.zeros 3, .zeros 3, .zeros 3⟩
    ∃ stand balance later a term p,
      TrackingObjective.create "balance" (kind .leftStance) (.uniform 3 1 1) (.identity 3) =
        .ok stand ∧
      stand.withPhaseScale .leftStance 2 = .ok balance ∧
      TrackingObjective.create "later" (kind .rightStance) (.uniform 3 1 1) (.identity 3) =
        .ok later ∧
      Assembler.create .standard r.model = .ok a ∧
      balance.evaluate r.model state .leftStance 0 (samples "balance") = .ok (some term) ∧
      a.build r.model state [term] [foot] = .ok p ∧
      p.P.IsSymmetric ∧ (p.P.leading 3).IsPosDef ∧ p.P.upperToSparse.mirror = p.P := by
  intro _ r state foot kind samples
  have hleast : ∀ m ∈ [Mat.scalarMatrix 3 (1 : ℝ), .scalarMatrix 3 1, .identity 3],
      0 ≤ m.entry 0 0 := by
    simp [Mat.scalarMatrix, Mat.identity, Mat.diagonal]
  have hcreate (name : String) (phase : PhaseId) :
      TrackingObjective.create name (kind phase) (.uniform 3 1 1) (.identity 3) =
        .ok ⟨name, kind phase, .uniform 3 1 1, .identity 3, .empty, none, .trajectory⟩ :=
    TrackingObjective.create_uniform_eq_ok hleast
  let stand : TrackingObjective ℝ :=
    ⟨"balance", kind .leftStance, .uniform 3 1 1, .identity 3, .empty, none, .trajectory⟩
  let balance : TrackingObjective ℝ :=
    { stand with phaseScales := SortedMap.empty.insert .leftStance 2 }
  let later : TrackingObjective ℝ :=
    ⟨"later", kind .rightStance, .uniform 3 1 1, .identity 3, .empty, none, .trajectory⟩
  have hscale : stand.withPhaseScale .leftStance 2 = .ok balance := by
    rw [TrackingObjective.withPhaseScale, if_neg (by simp)]
  have hstand : stand.Made := .create (hcreate "balance" .leftStance)
  have hlater : later.Made := .create (hcreate "later" .rightStance)
  have hmade : ∀ o ∈ [balance, later], o.Made ∧ o.weight.IsPosSemidef := by
    simp only [List.forall_mem_cons]
    exact ⟨⟨.phaseScale hstand hscale, Mat.isPosSemidef_identity 3⟩,
      ⟨hlater, Mat.isPosSemidef_identity 3⟩, List.forall_mem_nil _⟩
  obtain ⟨term, hterm⟩ : ∃ term, balance.evaluate r.model state .leftStance 0
    (samples "balance") = .ok (some term) := ⟨_, rfl⟩
  have hidle : later.evaluate r.model state .leftStance 0 (samples "later") = .ok none := rfl
  have hfits : ∀ t ∈ [term], t.Fits 3 := List.forall_mem_singleton.2
    ((hmade balance List.mem_cons_self).1.wellShaped.fits_of_evaluate_eq_ok r.serves.toRegular
      hterm term rfl)
  let a : Assembler ℝ := ⟨.standard, []⟩
  have ha : Assembler.create .standard r.model = .ok a := rfl
  have hbuild : a.build r.model state [term] [foot] =
      .ok ((r.tickData state [foot]).program a [term]) :=
    PointMass.build_eq_ok ⟨rfl, rfl⟩ (List.forall_mem_singleton.2 rfl) hfits (List.forall_mem_nil _)
  obtain ⟨hsymm, -, ⟨-, hsize, hposdef⟩, hmirror⟩ := hessian_convex
    (Settings.validate_eq_ok_iff.2 Settings.valid_standard) ha hmade
    (.cons hterm (.cons hidle .nil)) hbuild
  rw [hsize] at hposdef
  exact ⟨stand, balance, later, a, term, _, hcreate _ _, hscale, hcreate _ _, ha, hterm, hbuild,
    hsymm, hposdef, hmirror⟩

end WholeBody
