import Mathlib
import WholeBody.Proofs.Config.Objectives
import WholeBody.Proofs.Config.PhaseText
import WholeBody.Proofs.Linear.Compressed
import WholeBody.Proofs.Scalar.Machine
import WholeBody.Proofs.Tracking.Samples

/-!
# Descriptions that are accepted

The checks of an objective are spread over its kind, its matrices, its window, its scales and its
constant target. Together they accept exactly the well-formed descriptions, and an accepted
description has the matrices that it denotes.

## Main definitions

* `MatrixSpec.denoted` — the matrix that a specification denotes.
* `ObjectiveSpec.WellFormed` — what a description must be.

## Main statements

* `ObjectiveSpec.exists_objectiveKind_eq_ok_iff` — the kinds that are accepted with their targets.
* `ObjectiveSpec.exists_toObjective_eq_ok_iff` — the descriptions that are accepted.
* `toObjective_accepts_wellFormed` — acceptance, refusal and what becomes of the matrices.
-/

namespace WholeBody

variable {α : Type}

/-! ### Kinds -/

namespace KindSpec

/-- Dimension of the task velocity. -/
def dim : KindSpec → ℕ
  | jointSpace => 1
  | _ => 3

/-- Length of a desired value. -/
def valueDim : KindSpec → ℕ
  | rotationalFrame => 4
  | kind => kind.dim

end KindSpec

namespace ObjectiveKind

/-- The kind without its binding. -/
def spec : ObjectiveKind α → KindSpec
  | centerOfMass _ => .centerOfMass
  | translationalPoint _ => .translationalPoint
  | rotationalFrame _ => .rotationalFrame
  | jointSpace _ => .jointSpace

theorem dim_spec (kind : ObjectiveKind α) : kind.spec.dim = kind.dim := by
  cases kind <;> rfl

theorem valueDim_spec (kind : ObjectiveKind α) : kind.spec.valueDim = kind.valueDim := by
  cases kind <;> rfl

theorem isOrientation_iff {kind : ObjectiveKind α} :
    kind.isOrientation = true ↔ kind.spec = .rotationalFrame := by
  cases kind <;> simp [isOrientation, spec]

end ObjectiveKind

/-! ### Matrices -/

namespace MatrixSpec

variable [Scalar α] {spec : MatrixSpec α} {n : ℕ} {what : String} {m : Mat α}

/-- A number, `n` entries of a diagonal, or `n` rows of `n` entries. -/
def Fits (n : ℕ) : MatrixSpec α → Prop
  | scalar _ => True
  | diagonal entries => entries.length = n
  | full rows => rows.length = n ∧ ∀ row ∈ rows, row.length = n

/-- The `n × n` matrix that is denoted. -/
def denoted (n : ℕ) : MatrixSpec α → Mat α
  | scalar c => .scalarMatrix n c
  | diagonal entries => .diagonal n fun i => entries.getD i 0
  | full rows => .ofFn n n fun i j => (rows.getD i []).getD j 0

theorem toMatrix_eq_ok_iff :
    spec.toMatrix n what = .ok m ↔ spec.Fits n ∧ m = spec.denoted n := by
  cases spec with
  | scalar c =>
    rw [toMatrix, Except.ok.injEq, eq_comm]
    exact (and_iff_right trivial).symm
  | diagonal entries =>
    rw [toMatrix, Except.ite_error_eq_ok_iff, not_ne_iff]
    rfl
  | full rows =>
    rw [toMatrix]
    by_cases hrows : rows.length = n
    · rw [if_neg (not_ne_iff.2 hrows)]
      cases hrow : rows.find? (·.length ≠ n) with
      | some row =>
        have hlength : row.length ≠ n := by simpa using List.find?_some hrow
        have hmem := List.mem_of_find?_eq_some hrow
        exact ⟨nofun, fun h => absurd (h.1.2 row hmem) hlength⟩
      | none =>
        have hall : ∀ row ∈ rows, row.length = n := by simpa using List.find?_eq_none.1 hrow
        rw [Except.ok.injEq, eq_comm]
        exact (and_iff_right ⟨hrows, hall⟩).symm
    · rw [if_pos hrows]
      exact ⟨nofun, fun h => absurd h.1.1 hrows⟩

/-- A diagonal with one number in every place is given by the rows of that multiple of the
identity. -/
theorem denoted_full_eq (n : ℕ) (s : α) :
    denoted n (.full ((List.range n).map fun i =>
      (List.range n).map fun j => if i = j then s else 0)) =
      denoted n (.diagonal (List.replicate n s)) := by
  refine Mat.ext_entry rfl rfl fun i (hi : i < n) j (hj : j < n) => ?_
  rw [denoted, denoted, Mat.diagonal, Mat.entry_ofFn_of_lt hi hj, Mat.entry_ofFn_of_lt hi hj]
  simp [hi, hj]

/-- A multiple of the identity is a diagonal with one number in every place, apart from the signs of
zeros. -/
theorem plainZeros_denoted_scalar [Scalar.Orderly α] (n : ℕ) {s : α}
    (hs : Scalar.isFinite s = true) :
    (denoted n (.scalar s)).plainZeros =
      (denoted n (.diagonal (List.replicate n s))).plainZeros := by
  refine Mat.ext_entry rfl rfl fun i (hi : i < n) j (hj : j < n) => ?_
  have hscalar : (denoted n (.scalar s)).entry i j = (if i = j then 1 else 0) * s :=
    Mat.entry_ofFn_of_lt hi hj
  have hdiagonal : (denoted n (.diagonal (List.replicate n s))).entry i j =
      if i = j then s else 0 := by
    rw [denoted, Mat.diagonal, Mat.entry_ofFn_of_lt hi hj]
    simp [hi]
  rw [Mat.plainZeros, Mat.plainZeros]
  refine (Mat.entry_ofFn_of_lt hi hj).trans (Eq.trans ?_ (Mat.entry_ofFn_of_lt hi hj).symm)
  rw [hscalar, hdiagonal]
  by_cases hij : i = j
  · rw [if_pos hij, if_pos hij, Scalar.Orderly.one_mul hs]
  · rw [if_neg hij, if_neg hij, if_pos (Scalar.Orderly.isZero_zero_mul hs), ite_self]

end MatrixSpec

/-! ### Targets -/

/-- The field is given that a kind of objective needs: a body for points and frames, a joint for
joints, none for the center of mass. -/
def TargetSpec.HasField : KindSpec → TargetSpec α → Prop
  | .centerOfMass, _ => True
  | .translationalPoint, t => t.body.isSome = true
  | .rotationalFrame, t => t.body.isSome = true
  | .jointSpace, t => t.joint.isSome = true

namespace ObjectiveSpec

/-- The targets are given: one for every phase or some by phase, not both, with the field of the
kind. The center of mass may go without. -/
structure Bound (o : ObjectiveSpec α) : Prop where
  exclusive : ¬ (o.target.isSome = true ∧ o.phases.isEmpty = false)
  given : o.kind ≠ .centerOfMass → o.target.isSome = true ∨ o.phases.isEmpty = false
  target : ∀ t ∈ o.target, t.HasField o.kind
  phases : ∀ e ∈ o.phases.entries, (∃ p, PhaseId.Denotes e.1 p) ∧ e.2.HasField o.kind

variable {o : ObjectiveSpec α}

/-- A binding is made of exactly one target or of some targets by phase. -/
theorem exists_binding_eq_ok_iff {τ : Type} {read : TargetSpec α → Except (ConfigError α) τ}
    {P : TargetSpec α → Prop} (hread : ∀ t, (∃ x, read t = .ok x) ↔ P t) :
    (∃ b, o.binding read = .ok b) ↔
      ¬ (o.target.isSome = true ∧ o.phases.isEmpty = false) ∧
        (o.target.isSome = true ∨ o.phases.isEmpty = false) ∧
        (∀ t ∈ o.target, P t) ∧
        ∀ e ∈ o.phases.entries, (∃ p, PhaseId.Denotes e.1 p) ∧ P e.2 := by
  have hentry (e : String × TargetSpec α) :
      (∃ c, (do return (← readPhase e.1, ← read e.2) : Except (ConfigError α) _) = .ok c) ↔
        (∃ p, PhaseId.Denotes e.1 p) ∧ P e.2 := by
    simp only [Except.exists_bind_eq_ok_iff (x := readPhase e.1), Except.exists_bind_pure_eq_ok_iff,
      readPhase_eq_ok_iff, PhaseId.ofText?_eq_some_iff, hread, exists_and_right]
  rw [binding]
  cases htarget : o.target with
  | some target =>
    cases hphases : o.phases.isEmpty with
    | true =>
      have hempty : o.phases.entries = [] := List.isEmpty_iff.1 hphases
      refine Except.exists_bind_pure_eq_ok_iff.trans ((hread target).trans ?_)
      simp [hempty]
    | false => simp
  | none =>
    cases hphases : o.phases.isEmpty with
    | true => simp
    | false =>
      refine Except.exists_bind_pure_eq_ok_iff.trans (Except.exists_mapM_eq_ok_iff.trans ?_)
      simp only [hentry]
      simp

theorem exists_bound_eq_ok_iff {τ : Type} {read : TargetSpec α → Except (ConfigError α) τ}
    {bound : PhaseBinding τ → ObjectiveKind α}
    (hread : ∀ t, (∃ x, read t = .ok x) ↔ t.HasField o.kind)
    (hgiven : o.kind = .centerOfMass → o.phases.isEmpty = false) :
    (∃ kind, (o.binding read >>= fun b => pure (bound b)) = .ok kind) ↔ o.Bound := by
  rw [Except.exists_bind_pure_eq_ok_iff, exists_binding_eq_ok_iff hread]
  constructor
  · rintro ⟨hexclusive, hgiven, htarget, hphases⟩
    exact ⟨hexclusive, fun _ => hgiven, htarget, hphases⟩
  · rintro ⟨hexclusive, hgiven', htarget, hphases⟩
    refine ⟨hexclusive, ?_, htarget, hphases⟩
    by_cases hkind : o.kind = .centerOfMass
    · exact .inr (hgiven hkind)
    · exact hgiven' hkind

variable [Scalar α]

/-- The kind of an objective is known when its targets are given. -/
theorem exists_objectiveKind_eq_ok_iff : (∃ kind, o.objectiveKind = .ok kind) ↔ o.Bound := by
  cases hkind : o.kind with
  | centerOfMass =>
    cases hphases : o.phases.isEmpty with
    | true =>
      have hempty : o.phases.entries = [] := List.isEmpty_iff.1 hphases
      rw [objectiveKind, hkind, if_pos hphases]
      refine iff_of_true ⟨_, rfl⟩
        ⟨by simp [hphases], by simp [hkind], fun t _ => ?_, by simp [hempty]⟩
      rw [hkind]
      trivial
    | false =>
      rw [objectiveKind, hkind, hphases]
      refine exists_bound_eq_ok_iff (fun t => ?_) fun _ => hphases
      rw [hkind]
      exact iff_of_true ⟨(), rfl⟩ trivial
  | translationalPoint =>
    rw [objectiveKind, hkind]
    refine exists_bound_eq_ok_iff (fun t => ?_) (by simp [hkind])
    cases hbody : t.body <;> simp [TargetSpec.bodyPoint, TargetSpec.HasField, hkind, hbody]
  | rotationalFrame =>
    rw [objectiveKind, hkind]
    refine exists_bound_eq_ok_iff (fun t => ?_) (by simp [hkind])
    cases hbody : t.body <;> simp [TargetSpec.frame, TargetSpec.HasField, hkind, hbody]
  | jointSpace =>
    rw [objectiveKind, hkind]
    refine exists_bound_eq_ok_iff (fun t => ?_) (by simp [hkind])
    cases hjoint : t.joint <;> simp [TargetSpec.jointName, TargetSpec.HasField, hkind, hjoint]

/-- The kind that is made is the one of the description. -/
theorem spec_of_objectiveKind_eq_ok {kind : ObjectiveKind α} (h : o.objectiveKind = .ok kind) :
    kind.spec = o.kind := by
  have hbound {τ : Type} {x : Except (ConfigError α) (PhaseBinding τ)}
      {bound : PhaseBinding τ → ObjectiveKind α} (h : (x >>= fun b => pure (bound b)) = .ok kind)
      (hspec : ∀ b, (bound b).spec = o.kind) : kind.spec = o.kind := by
    obtain ⟨b, -, h⟩ := Except.of_bind_eq_ok h
    cases h
    exact hspec b
  rw [objectiveKind] at h
  cases hkind : o.kind with
  | centerOfMass =>
    rw [hkind] at h hbound
    dsimp only at h
    split at h
    · cases h
      rfl
    · exact hbound h fun _ => rfl
  | translationalPoint | rotationalFrame | jointSpace =>
    rw [hkind] at h hbound
    exact hbound h fun _ => rfl

theorem dim_of_objectiveKind_eq_ok {kind : ObjectiveKind α} (h : o.objectiveKind = .ok kind) :
    kind.dim = o.kind.dim := by
  rw [← kind.dim_spec, spec_of_objectiveKind_eq_ok h]

/-! ### Scales and constant targets -/

theorem exists_applyScales_eq_ok_iff {t : TrackingObjective α} :
    (∃ t', o.applyScales t = .ok t') ↔ ∀ e ∈ o.phaseScales.entries,
      (∃ p, PhaseId.Denotes e.1 p) ∧ Scalar.isFinite e.2 = true ∧ ¬ e.2 < 0 := by
  refine Except.exists_foldlM_eq_ok_iff fun t e => ?_
  simp only [Except.exists_bind_eq_ok_iff, TrackingObjective.withPhaseScale_eq_ok_iff,
    readPhase_eq_ok_iff, PhaseId.ofText?_eq_some_iff, exists_and_left, exists_eq, and_true,
    exists_and_right]

/-- Scales leave all else of an objective as it is. -/
theorem kind_of_applyScales_eq_ok {t t' : TrackingObjective α} (h : o.applyScales t = .ok t') :
    t'.kind = t.kind := by
  rw [(of_foldlM_withPhaseScale h).2.1]

end ObjectiveSpec

/-- A constant target has the lengths of its kind and finite entries, and the quaternion of an
orientation can be normalized. -/
structure ConstantSpec.WellFormed [Scalar α] (c : ConstantSpec α) (kind : KindSpec) : Prop where
  value : c.value.length = kind.valueDim
  dot : ∀ d ∈ c.dot, d.length = kind.dim
  ddot : ∀ d ∈ c.ddot, d.length = kind.dim
  finite : ∀ x ∈ c.value ++ c.dot.getD [] ++ c.ddot.getD [], Scalar.isFinite x = true
  direction : kind = .rotationalFrame →
    Scalar.isFinite (Quaternion.ofVec (.ofList c.value) 0).norm = true ∧
      Scalar.ofDecimal 1 9 ≤ (Quaternion.ofVec (.ofList c.value) 0).norm

section Constant

variable [Scalar α]

theorem size_derivative_eq_iff {d : Option (List α)} {n : ℕ} :
    ((d.map Vec.ofList).getD (.zeros n)).size = n ↔ ∀ xs ∈ d, xs.length = n := by
  cases d <;> simp

theorem allFinite_ofList {xs : List α} :
    (Vec.ofList xs).allFinite = true ↔ ∀ x ∈ xs, Scalar.isFinite x = true :=
  List.all_eq_true

variable [Scalar.Orderly α]

theorem allFinite_derivative_iff {d : Option (List α)} {n : ℕ} :
    ((d.map Vec.ofList).getD (.zeros n)).allFinite = true ↔
      ∀ x ∈ d.getD [], Scalar.isFinite x = true := by
  cases d with
  | none =>
    rw [Option.map_none, Option.getD_none]
    refine iff_of_true (Vec.allFinite_iff.2 fun i hi => ?_) (List.forall_mem_nil _)
    rw [Vec.size_zeros] at hi
    rw [Vec.zeros, Vec.entry_ofFn_of_lt hi]
    exact Scalar.Orderly.isFinite_zero
  | some xs => exact allFinite_ofList

/-- The constant targets that an objective accepts. -/
theorem checkSample_constantSample_iff {t : TrackingObjective α} {c : ConstantSpec α} :
    t.checkSample (ObjectiveSpec.constantSample c t.kind.dim) = .ok () ↔
      c.WellFormed t.kind.spec := by
  have hfinite : (ObjectiveSpec.constantSample c t.kind.dim).allFinite = true ↔
      ∀ x ∈ c.value ++ c.dot.getD [] ++ c.ddot.getD [], Scalar.isFinite x = true := by
    simp only [TrajectorySample.allFinite, ObjectiveSpec.constantSample, Bool.and_eq_true,
      allFinite_ofList, allFinite_derivative_iff, List.forall_mem_append]
  have hdirection (hnorm : Scalar.isFinite (Quaternion.ofVec (.ofList c.value) 0).norm = true) :=
    Scalar.Orderly.not_lt_iff_le (Scalar.Orderly.isFinite_billionth (α := α)) hnorm
  rw [TrackingObjective.checkSample_eq_ok_iff]
  constructor
  · rintro ⟨hvalue, hdot, hddot, hall, horientation⟩
    refine ⟨?_, ?_, ?_, hfinite.1 hall, fun hkind => ?_⟩
    · rw [t.kind.valueDim_spec, ← hvalue]
      exact (Vec.size_ofList _).symm
    · rw [t.kind.dim_spec]
      exact size_derivative_eq_iff.1 hdot
    · rw [t.kind.dim_spec]
      exact size_derivative_eq_iff.1 hddot
    · obtain ⟨hnorm, hlong⟩ := horientation (ObjectiveKind.isOrientation_iff.2 hkind)
      exact ⟨hnorm, (hdirection hnorm).1 hlong⟩
  · rintro ⟨hvalue, hdot, hddot, hall, horientation⟩
    rw [t.kind.valueDim_spec] at hvalue
    rw [t.kind.dim_spec] at hdot hddot
    refine ⟨(Vec.size_ofList _).trans hvalue, size_derivative_eq_iff.2 hdot,
      size_derivative_eq_iff.2 hddot, hfinite.2 hall, fun hkind => ?_⟩
    obtain ⟨hnorm, hlong⟩ := horientation (ObjectiveKind.isOrientation_iff.1 hkind)
    exact ⟨hnorm, (hdirection hnorm).2 hlong⟩

end Constant

/-! ### Whole descriptions -/

section Description

variable [Scalar α] [Spectrum α]

/-- The form of a gain or a weight fits its objective, and the matrix that it denotes passes the
checks. -/
def MatrixSpec.Passes (spec : MatrixSpec α) (objective : String) (role : MatrixRole) (n : ℕ) :
    Prop :=
  spec.Fits n ∧ FeedbackGains.validateMatrix objective role (spec.denoted n) n = .ok ()

/-- What a description must be. -/
structure ObjectiveSpec.WellFormed (o : ObjectiveSpec α) : Prop where
  bound : o.Bound
  kp : o.kp.Passes o.name .kp o.kind.dim
  kd : o.kd.Passes o.name .kd o.kind.dim
  weight : o.weight.Passes o.name .weight o.kind.dim
  window : ∀ w ∈ o.window, Scalar.isFinite w.1 = true ∧ Scalar.isFinite w.2 = true ∧ w.1 ≤ w.2
  phaseScales : ∀ e ∈ o.phaseScales.entries,
    (∃ p, PhaseId.Denotes e.1 p) ∧ Scalar.isFinite e.2 = true ∧ 0 ≤ e.2
  constant : ∀ c ∈ o.constant, c.WellFormed o.kind

namespace ObjectiveSpec

variable {o : ObjectiveSpec α} {t : TrackingObjective α}

/-- The objective of a description, before its scales and its constant target. -/
def made (o : ObjectiveSpec α) (kind : ObjectiveKind α) : TrackingObjective α where
  name := o.name
  kind := kind
  gains := ⟨o.kp.denoted o.kind.dim, o.kd.denoted o.kind.dim⟩
  weight := o.weight.denoted o.kind.dim
  phaseScales := .empty
  window := o.window.map fun w => ⟨w.1, w.2⟩
  source := .trajectory

/-- The links of the chain that makes an objective, with what each of them checks. -/
theorem toObjective_eq_ok_iff : o.toObjective = .ok t ↔
    ∃ kind, o.objectiveKind = .ok kind ∧
      (o.kp.Passes o.name .kp o.kind.dim ∧ o.kd.Passes o.name .kd o.kind.dim ∧
        o.weight.Passes o.name .weight o.kind.dim) ∧
      (∀ w ∈ o.window, Scalar.isFinite w.1 = true ∧ Scalar.isFinite w.2 = true ∧ ¬ w.2 < w.1) ∧
      ∃ t', o.applyScales (o.made kind) = .ok t' ∧ o.applyConstant kind.dim t' = .ok t := by
  constructor
  · intro h
    obtain ⟨kind, kp, kd, weight, t₁, t₂, hkind, hkp, hkd, hweight, hcreate, ht₁, ht₂, ht⟩ :=
      of_toObjective_eq_ok h
    have hdim := dim_of_objectiveKind_eq_ok hkind
    rw [hdim] at hkp hkd hweight
    obtain ⟨hkpFits, rfl⟩ := MatrixSpec.toMatrix_eq_ok_iff.1 hkp
    obtain ⟨hkdFits, rfl⟩ := MatrixSpec.toMatrix_eq_ok_iff.1 hkd
    obtain ⟨hweightFits, rfl⟩ := MatrixSpec.toMatrix_eq_ok_iff.1 hweight
    obtain ⟨⟨hkp, hkd, hweight⟩, -⟩ := TrackingObjective.create_eq_ok_iff.1 hcreate
    rw [hdim] at hkp hkd hweight
    obtain ⟨hwindow, rfl⟩ := applyWindow_eq_ok_iff.1 ht₁
    rw [Option.or_none] at ht₂
    exact ⟨kind, hkind, ⟨⟨hkpFits, hkp⟩, ⟨hkdFits, hkd⟩, ⟨hweightFits, hweight⟩⟩, hwindow, t₂, ht₂,
      ht⟩
  · rintro ⟨kind, hkind, ⟨⟨hkpFits, hkp⟩, ⟨hkdFits, hkd⟩, ⟨hweightFits, hweight⟩⟩, hwindow, t', ht',
      ht⟩
    have hdim := dim_of_objectiveKind_eq_ok hkind
    rw [← hdim] at hkpFits hkp hkdFits hkd hweightFits hweight
    refine Except.bind_eq_ok_iff.2 ⟨kind, Attempt.ofExcept_eq_ok hkind, ?_⟩
    refine Except.bind_eq_ok_iff.2 ⟨o.kp.denoted kind.dim,
      Attempt.ofExcept_eq_ok (MatrixSpec.toMatrix_eq_ok_iff.2 ⟨hkpFits, rfl⟩), ?_⟩
    refine Except.bind_eq_ok_iff.2 ⟨o.kd.denoted kind.dim,
      Attempt.ofExcept_eq_ok (MatrixSpec.toMatrix_eq_ok_iff.2 ⟨hkdFits, rfl⟩), ?_⟩
    refine Except.bind_eq_ok_iff.2 ⟨o.weight.denoted kind.dim,
      Attempt.ofExcept_eq_ok (MatrixSpec.toMatrix_eq_ok_iff.2 ⟨hweightFits, rfl⟩), ?_⟩
    refine Except.bind_eq_ok_iff.2 ⟨_,
      TrackingObjective.create_eq_ok_iff.2 ⟨⟨hkp, hkd, hweight⟩, rfl⟩, ?_⟩
    refine Except.bind_eq_ok_iff.2 ⟨o.made kind,
      Attempt.ofExcept_eq_ok (applyWindow_eq_ok_iff.2 ⟨hwindow, ?_⟩), ?_⟩
    · rw [made, hdim, Option.or_none]
    · exact Except.bind_eq_ok_iff.2 ⟨t', Attempt.ofExcept_eq_ok ht', Attempt.ofExcept_eq_ok ht⟩

theorem conforms_toObjective : o.toObjective.Conforms := by
  refine (Attempt.conforms_ofExcept _ _).bind fun kind _ => ?_
  refine (Attempt.conforms_ofExcept _ _).bind fun kp _ => ?_
  refine (Attempt.conforms_ofExcept _ _).bind fun kd _ => ?_
  refine (Attempt.conforms_ofExcept _ _).bind fun weight _ => ?_
  refine TrackingObjective.conforms_create.bind fun t _ => ?_
  refine (Attempt.conforms_ofExcept _ _).bind fun t _ => ?_
  refine (Attempt.conforms_ofExcept _ _).bind fun t _ => ?_
  exact Attempt.conforms_ofExcept _ _

/-- An accepted description gives an objective with the matrices that it denotes. -/
theorem fields_of_toObjective_eq_ok (h : o.toObjective = .ok t) :
    t.name = o.name ∧ t.kind.spec = o.kind ∧
      t.gains = ⟨o.kp.denoted o.kind.dim, o.kd.denoted o.kind.dim⟩ ∧
      t.weight = o.weight.denoted o.kind.dim ∧
      t.window = o.window.map (fun w => ⟨w.1, w.2⟩) ∧
      t.source =
        (o.constant.map fun c => .constant (constantSample c o.kind.dim)).getD .trajectory := by
  obtain ⟨kind, hkind, -, -, t', ht', ht⟩ := toObjective_eq_ok_iff.1 h
  rw [(applyConstant_eq_ok_iff.1 ht).2, (of_foldlM_withPhaseScale ht').2.1,
    dim_of_objectiveKind_eq_ok hkind]
  exact ⟨rfl, spec_of_objectiveKind_eq_ok hkind, rfl, rfl, rfl, rfl⟩

variable [Scalar.Orderly α]

/-- The descriptions that are accepted. -/
theorem exists_toObjective_eq_ok_iff : (∃ t, o.toObjective = .ok t) ↔ o.WellFormed := by
  have hnonneg {x : α} (hx : Scalar.isFinite x = true) : ¬ x < 0 ↔ 0 ≤ x :=
    Scalar.Orderly.not_lt_iff_le Scalar.Orderly.isFinite_zero hx
  have hinterval {w : α × α} (h₁ : Scalar.isFinite w.1 = true) (h₂ : Scalar.isFinite w.2 = true) :
      ¬ w.2 < w.1 ↔ w.1 ≤ w.2 :=
    Scalar.Orderly.not_lt_iff_le h₁ h₂
  constructor
  · rintro ⟨t, ht⟩
    obtain ⟨kind, hkind, ⟨hkp, hkd, hweight⟩, hwindow, t', ht', ht⟩ := toObjective_eq_ok_iff.1 ht
    have hsame : t'.kind = kind := kind_of_applyScales_eq_ok ht'
    refine ⟨exists_objectiveKind_eq_ok_iff.1 ⟨kind, hkind⟩, hkp, hkd, hweight, fun w hw => ?_,
      fun e he => ?_, fun c hc => ?_⟩
    · obtain ⟨h₁, h₂, hle⟩ := hwindow w hw
      exact ⟨h₁, h₂, (hinterval h₁ h₂).1 hle⟩
    · obtain ⟨hkey, hfinite, hle⟩ := exists_applyScales_eq_ok_iff.1 ⟨t', ht'⟩ e he
      exact ⟨hkey, hfinite, (hnonneg hfinite).1 hle⟩
    · rw [← spec_of_objectiveKind_eq_ok hkind, ← hsame]
      rw [← hsame] at ht
      exact checkSample_constantSample_iff.1 ((applyConstant_eq_ok_iff.1 ht).1 c hc)
  · intro h
    obtain ⟨kind, hkind⟩ := exists_objectiveKind_eq_ok_iff.2 h.bound
    obtain ⟨t', ht'⟩ := (exists_applyScales_eq_ok_iff (t := o.made kind)).2 fun e he => by
      obtain ⟨hkey, hfinite, hle⟩ := h.phaseScales e he
      exact ⟨hkey, hfinite, (hnonneg hfinite).2 hle⟩
    have hsame : t'.kind = kind := kind_of_applyScales_eq_ok ht'
    refine ⟨_, toObjective_eq_ok_iff.2 ⟨kind, hkind, ⟨h.kp, h.kd, h.weight⟩, fun w hw => ?_, t',
      ht', applyConstant_eq_ok_iff.2 ⟨fun c hc => ?_, rfl⟩⟩⟩
    · obtain ⟨h₁, h₂, hle⟩ := h.window w hw
      exact ⟨h₁, h₂, (hinterval h₁ h₂).2 hle⟩
    · rw [← hsame]
      refine checkSample_constantSample_iff.2 ?_
      rw [hsame, spec_of_objectiveKind_eq_ok hkind]
      exact h.constant c hc

end ObjectiveSpec

/-- Exactly the well-formed descriptions give an objective, and every other one gives an error. The
objective has the matrices that are denoted. A number, that number in every place of a diagonal and
the rows of that multiple of the identity denote one matrix, apart from the signs of zeros. -/
theorem toObjective_accepts_wellFormed [Scalar.Orderly α] (o : ObjectiveSpec α) :
    ((∃ t, o.toObjective = .ok t) ↔ o.WellFormed) ∧
    (¬ o.WellFormed → ∃ e, o.toObjective = .error (.error e)) ∧
    (∀ t, o.toObjective = .ok t →
      t.name = o.name ∧ t.kind.spec = o.kind ∧
        t.gains = ⟨o.kp.denoted o.kind.dim, o.kd.denoted o.kind.dim⟩ ∧
        t.weight = o.weight.denoted o.kind.dim ∧
        t.window = o.window.map (fun w => ⟨w.1, w.2⟩) ∧
        t.source = (o.constant.map fun c =>
          .constant (ObjectiveSpec.constantSample c o.kind.dim)).getD .trajectory) ∧
    ∀ (n : ℕ) (s : α), Scalar.isFinite s = true →
      MatrixSpec.denoted n (.full ((List.range n).map fun i =>
        (List.range n).map fun j => if i = j then s else 0)) =
        MatrixSpec.denoted n (.diagonal (List.replicate n s)) ∧
      (MatrixSpec.denoted n (.scalar s)).plainZeros =
        (MatrixSpec.denoted n (.diagonal (List.replicate n s))).plainZeros := by
  refine ⟨ObjectiveSpec.exists_toObjective_eq_ok_iff, fun hrefused => ?_,
    fun t ht => ObjectiveSpec.fields_of_toObjective_eq_ok ht, fun n s hs =>
    ⟨MatrixSpec.denoted_full_eq n s, MatrixSpec.plainZeros_denoted_scalar n hs⟩⟩
  cases h : o.toObjective with
  | ok t => exact absurd (ObjectiveSpec.exists_toObjective_eq_ok_iff.1 ⟨t, h⟩) hrefused
  | error e =>
    cases e with
    | error e => exact ⟨e, rfl⟩
    | nonconforming => exact absurd h ObjectiveSpec.conforms_toObjective

end Description

/-- The orientation of a torso with a target on each foot, and one form of a matrix in each role. -/
def torso : ObjectiveSpec Float where
  name := "torso"
  kind := .rotationalFrame
  kp := .scalar 100
  kd := .diagonal [20, 20, 20]
  weight := .full [[1, 0, 0], [0, 1, 0], [0, 0, 1]]
  target := none
  phases := .ofList
    [("left_stance", ⟨some "torso", none, none⟩), ("+1", ⟨some "torso", none, none⟩)]
  window := some (0, 2)
  phaseScales := .ofList [("double_stance", 0)]
  constant := some ⟨[1, 0, 0, 0], none, some [0, 0, 0]⟩

/-- The torso is accepted, and it is refused when its constant target has no direction. -/
theorem toObjective_accepts_wellFormed_torso :
    torso.WellFormed ∧
      (∃ t, torso.toObjective = .ok t ∧ t.gains.kp = .scalarMatrix 3 100 ∧
        t.gains.kd = .diagonal 3 fun i => [20, 20, 20].getD i 0) ∧
      ∃ e, ({ torso with constant := some ⟨[0, 0, 0, 0], none, none⟩ } :
        ObjectiveSpec Float).toObjective = .error (.error e) := by
  obtain ⟨haccepted, -, hfields, -⟩ := toObjective_accepts_wellFormed torso
  obtain ⟨t, ht⟩ : ∃ t, torso.toObjective = .ok t := Except.exists_of_isOk (by decide +kernel)
  obtain ⟨-, -, hgains, -⟩ := hfields t ht
  refine ⟨haccepted.1 ⟨t, ht⟩, ⟨t, ht, by rw [hgains]; rfl, by rw [hgains]; rfl⟩, ?_⟩
  refine (toObjective_accepts_wellFormed _).2.1 fun h => ?_
  obtain ⟨-, hlong⟩ := (h.constant _ rfl).direction rfl
  exact absurd hlong (by decide +kernel)

end WholeBody
