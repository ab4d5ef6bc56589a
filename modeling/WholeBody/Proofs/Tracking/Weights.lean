import Mathlib
import WholeBody.Proofs.Linear.Symmetric
import WholeBody.Proofs.Tracking.Gains

/-!
# Weights in exact arithmetic

Over the reals the checks of an objective are no obstacle to symmetric matrices whose least
eigenvalue is not negative, and no phase scale that was accepted is negative. So a weight that is
positive semidefinite stays so in every phase.

## Main statements

* `TrackingObjective.create_eq_ok` — objectives that pass the checks.
* `TrackingObjective.Made.isPosSemidef_effectiveWeight` — a weight in a phase.
* `TrackingObjective.isPosSemidef_of_evaluate_eq_ok` — the weights of the terms of a tick.
-/

namespace WholeBody

/-! ### The checks of an objective -/

variable [Spectrum ℝ]

namespace TrackingObjective

/-- Objectives that pass the checks. -/
theorem create_eq_ok {name : String} {kind : ObjectiveKind ℝ} {gains : FeedbackGains ℝ}
    {weight : Mat ℝ} (h : ∀ m ∈ [gains.kp, gains.kd, weight],
      m.IsSize kind.dim ∧ m.IsSymmetric ∧ 0 ≤ Spectrum.leastEigenvalue m) :
    create name kind gains weight =
      .ok ⟨name, kind, gains, weight, .empty, none, .trajectory⟩ := by
  have hdim : 0 < kind.dim := by cases kind <;> exact Nat.succ_pos _
  have hcheck {m : Mat ℝ} (hm : m ∈ [gains.kp, gains.kd, weight]) (role : MatrixRole) :
      FeedbackGains.validateMatrix name role m kind.dim = .ok () := by
    obtain ⟨hsize, hsymm, heigenvalue⟩ := h m hm
    exact FeedbackGains.validateMatrix_eq_ok hsize hdim hsymm heigenvalue
  rw [create, FeedbackGains.validate, hcheck (m := gains.kp) (by simp),
    hcheck (m := weight) (by simp)]
  exact congrArg (· >>= _) (hcheck (m := gains.kd) (by simp) .kd)

/-- Objectives with the same gains on every axis and unit weight. -/
theorem create_uniform_eq_ok {name : String} {kind : ObjectiveKind ℝ} {kp kd : ℝ}
    (h : ∀ m ∈ [Mat.scalarMatrix kind.dim kp, .scalarMatrix kind.dim kd, .identity kind.dim],
      0 ≤ Spectrum.leastEigenvalue m) :
    create name kind (.uniform kind.dim kp kd) (.identity kind.dim) =
      .ok ⟨name, kind, .uniform kind.dim kp kd, .identity kind.dim, .empty, none, .trajectory⟩ := by
  simp only [List.forall_mem_cons] at h
  obtain ⟨hkp, hkd, hweight, -⟩ := h
  refine create_eq_ok ?_
  simp only [List.forall_mem_cons]
  exact ⟨⟨⟨rfl, rfl⟩, Mat.isSymmetric_scalarMatrix _ kp, hkp⟩,
    ⟨⟨rfl, rfl⟩, Mat.isSymmetric_scalarMatrix _ kd, hkd⟩,
    ⟨⟨rfl, rfl⟩, Mat.isSymmetric_identity _, hweight⟩, List.forall_mem_nil _⟩

/-! ### Weights in a phase -/

variable {o : TrackingObjective ℝ}

/-- No phase scale that was accepted is negative. -/
theorem Made.phaseScale_nonneg (h : o.Made) : ∀ e ∈ o.phaseScales.entries, 0 ≤ e.2 := by
  induction h with
  | create h =>
    rw [eq_of_create_eq_ok h]
    exact List.forall_mem_nil _
  | constantTarget _ h ih =>
    obtain ⟨-, rfl⟩ := withConstantTarget_eq_ok_iff.1 h
    exact ih
  | window _ h ih =>
    obtain ⟨-, rfl⟩ := withWindow_eq_ok_iff.1 h
    exact ih
  | phaseScale _ h ih =>
    obtain ⟨⟨-, hscale⟩, rfl⟩ := withPhaseScale_eq_ok_iff.1 h
    intro e he
    rcases SortedMap.mem_insertEntry he with rfl | he
    · exact not_lt.1 hscale
    · exact ih e he

/-- A weight stays positive semidefinite in every phase. -/
theorem Made.isPosSemidef_effectiveWeight (h : o.Made) (hweight : o.weight.IsPosSemidef)
    (phase : PhaseId) : (o.effectiveWeight phase).IsPosSemidef := by
  rw [effectiveWeight]
  cases hscale : o.phaseScales.get? phase with
  | none => exact hweight
  | some scale =>
    obtain ⟨e, he, rfl⟩ := List.mem_map.1 (SortedMap.mem_values_of_get? hscale)
    exact hweight.smul (h.phaseScale_nonneg e he)

/-- The terms of a tick have positive semidefinite weights. -/
theorem isPosSemidef_of_evaluate_eq_ok {objectives : List (TrackingObjective ℝ)}
    (hmade : ∀ o ∈ objectives, o.Made ∧ o.weight.IsPosSemidef) {model : RobotModel ℝ}
    {state : RobotState ℝ} {phase : PhaseId} {timeInPhase : ℝ}
    {samples : String → Option (TrajectorySample ℝ)} {results : List (Option (TaskTerm ℝ))}
    (hresults : List.Forall₂ (fun o result => o.evaluate model state phase timeInPhase
      (samples o.name) = .ok result) objectives results) :
    ∀ t ∈ results.flatMap Option.toList, t.weight.IsPosSemidef := by
  intro t ht
  obtain ⟨result, hresult, ht⟩ := List.mem_flatMap.1 ht
  obtain ⟨o, ho, hevaluate⟩ := exists_of_mem_forall₂ hresults hresult
  obtain ⟨hmade, hweight⟩ := hmade o ho
  obtain ⟨-, rfl⟩ | ⟨_, s, m, -, rfl⟩ := of_evaluate_eq_ok hevaluate
  · exact absurd ht List.not_mem_nil
  · obtain rfl := List.mem_singleton.1 ht
    exact hmade.isPosSemidef_effectiveWeight hweight phase

end TrackingObjective

end WholeBody
