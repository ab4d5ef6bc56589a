import Mathlib
import WholeBody.Contact.Set
import WholeBody.Proofs.Attempt
import WholeBody.Proofs.Scalar.Real
import WholeBody.Settings

/-!
# Validated configurations

What is known of the settings and the contacts of a controller once they have passed their checks.

## Main statements

* `Settings.validate_eq_ok_iff` — the settings that pass.
* `ContactPoint.validate_eq_ok_iff`, `ContactSet.valid_of_validate_eq_ok` — the contacts that pass.
-/

namespace WholeBody

variable {α : Type} [Scalar α]

/-! ### Numbers -/

namespace Scalar

/-- Finite and not at most zero. -/
def IsPositive (x : α) : Prop := isFinite x = true ∧ ¬ x ≤ 0

/-- Finite and not below zero. -/
def IsNonnegative (x : α) : Prop := isFinite x = true ∧ ¬ x < 0

@[simp] theorem isPositive_real {x : ℝ} : IsPositive x ↔ 0 < x := by
  simp [IsPositive]

@[simp] theorem isNonnegative_real {x : ℝ} : IsNonnegative x ↔ 0 ≤ x := by
  simp [IsNonnegative]

theorem isPositive_iff {x : α} : IsPositive x ↔ ¬ (isFinite x = false ∨ x ≤ 0) := by
  simp [IsPositive]

theorem isNonnegative_iff {x : α} : IsNonnegative x ↔ ¬ (isFinite x = false ∨ x < 0) := by
  simp [IsNonnegative]

end Scalar

/-! ### Settings -/

/-- Both coefficients are positive. -/
def Friction.Valid (f : Friction α) : Prop :=
  Scalar.IsPositive f.coefficients.1 ∧ Scalar.IsPositive f.coefficients.2

/-- A polygon has at least three facets. -/
def ConeModel.Valid (cone : ConeModel) : Prop := ∀ n, cone = .linear n → 3 ≤ n

/-- The slack of a soft family has a positive weight. -/
def ConstraintMode.Valid (mode : ConstraintMode α) : Prop :=
  ∀ weight, mode = .soft weight → Scalar.IsPositive weight

/-- Settings that pass the checks of a controller. -/
structure Settings.Valid (s : Settings α) : Prop where
  accelerationRegularization : Scalar.IsPositive s.accelerationRegularization
  inputRegularization : Scalar.IsNonnegative s.inputRegularization
  contactForceRegularization : Scalar.IsNonnegative s.contactForceRegularization
  minNormalForce : Scalar.IsNonnegative s.minNormalForce
  jointCosts : ∀ e ∈ s.jointAccelerationCosts.entries, Scalar.IsNonnegative e.2
  contactMode : s.contactMode.Valid
  loopMode : s.loopMode.Valid
  defaultFriction : s.defaultFriction.Valid
  defaultCone : s.defaultCone.Valid
  budget : s.solver.maxIterations ≠ 0 ∧ 0 < s.solver.timeLimit

theorem Friction.validate_eq_ok_iff {f : Friction α} : f.validate = .ok () ↔ f.Valid := by
  have hcheck (mu : α) : checkCoefficient mu = .ok () ↔ Scalar.IsPositive mu :=
    Except.guard_eq_ok_iff.trans Scalar.isPositive_iff.symm
  simp only [validate, Except.seq_eq_ok_iff, hcheck, Valid]

omit [Scalar α] in
theorem ConeModel.validate_eq_ok_iff {cone : ConeModel} :
    cone.validate = (.ok () : Except (ConfigError α) Unit) ↔ cone.Valid := by
  cases cone with
  | linear n => exact Except.guard_eq_ok_iff.trans (by simp [Valid])
  | conic => simp [validate, Valid]

theorem ConstraintMode.validate_eq_ok_iff {field : String} {mode : ConstraintMode α} :
    mode.validate field = .ok () ↔ mode.Valid := by
  cases mode with
  | hard => simp [validate, Valid]
  | soft weight => exact Except.guard_eq_ok_iff.trans (by simp [Valid, Scalar.isPositive_iff])

theorem Settings.validate_eq_ok_iff {s : Settings α} : s.validate = .ok () ↔ s.Valid := by
  have hcheck (field : String) (value : α) :
      checkNonnegative field value = .ok () ↔ Scalar.IsNonnegative value :=
    Except.guard_eq_ok_iff.trans Scalar.isNonnegative_iff.symm
  simp only [validate, Except.seq_eq_ok_iff, Except.guard_bind_eq_ok_iff, Except.guard_eq_ok_iff,
    Except.forM_eq_ok_iff, hcheck, ← Scalar.isPositive_iff, not_not,
    ConstraintMode.validate_eq_ok_iff, Friction.validate_eq_ok_iff, ConeModel.validate_eq_ok_iff]
  constructor
  · rintro ⟨haccel, hinput, hforce, hleast, hcosts, hcontact, hloop, hfriction, hcone, hbudget⟩
    exact ⟨haccel, hinput, hforce, hleast, hcosts, hcontact, hloop, hfriction, hcone, hbudget⟩
  · rintro ⟨haccel, hinput, hforce, hleast, hcosts, hcontact, hloop, hfriction, hcone, hbudget⟩
    exact ⟨haccel, hinput, hforce, hleast, hcosts, hcontact, hloop, hfriction, hcone, hbudget⟩

/-- The standard settings pass their own checks. -/
theorem Settings.valid_standard : (standard : Settings ℝ).Valid := by
  have hdecimal {m : ℕ} (hm : 0 < m) (k : ℕ) : (0 : ℝ) < Scalar.ofDecimal m k := by
    rw [Scalar.ofDecimal_real]
    positivity
  have hzero : Scalar.IsNonnegative (0 : ℝ) := Scalar.isNonnegative_real.2 le_rfl
  have hfriction : Scalar.IsPositive (Scalar.ofDecimal 4 1 : ℝ) :=
    Scalar.isPositive_real.2 (hdecimal (by decide) 1)
  refine ⟨Scalar.isPositive_real.2 (hdecimal (by decide) 4), hzero, hzero, hzero, ?_, ?_, ?_,
    ⟨hfriction, hfriction⟩, ?_, ⟨?_, hdecimal (by decide) 2⟩⟩
  · exact List.forall_mem_nil _
  · intro weight hweight
    cases hweight
    rw [Scalar.isPositive_real]
    norm_num
  · intro weight hweight
    cases hweight
  · intro n hn
    cases hn
    decide
  · decide

/-! ### Contacts -/

/-- A contact that passes the checks against a robot, with the defaults filled in. -/
structure ContactPoint.Valid (c : ContactPoint α) (robot : RobotModel α)
    (defaultFriction : Friction α) (defaultCone : ConeModel) (supportsSecondOrderCones : Bool) :
    Prop where
  body : robot.hasBody c.point.body = true
  normal : Scalar.isFinite c.normal.norm = true ∧ ¬ c.normal.norm < Scalar.ofDecimal 1 9
  offset : c.point.offset.allFinite = true
  friction : (c.frictionOr defaultFriction).Valid
  cone : (c.coneOr defaultCone).Valid
  supported : c.coneOr defaultCone = .conic → supportsSecondOrderCones = true

variable {robot : RobotModel α} {friction : Friction α} {cone : ConeModel} {soc : Bool}

theorem ContactPoint.validate_eq_ok_iff {c : ContactPoint α} :
    c.validate robot friction cone soc = .ok () ↔ c.Valid robot friction cone soc := by
  simp only [validate, Except.seq_eq_ok_iff, Except.guard_bind_eq_ok_iff, Except.guard_eq_ok_iff,
    Friction.validate_eq_ok_iff, ConeModel.validate_eq_ok_iff, not_or, Bool.not_eq_false, not_and]
  constructor
  · rintro ⟨hbody, hnormal, hoffset, hfriction, hcone, hsoc⟩
    exact ⟨hbody, hnormal, hoffset, hfriction, hcone, hsoc⟩
  · rintro ⟨hbody, hnormal, hoffset, hfriction, hcone, hsoc⟩
    exact ⟨hbody, hnormal, hoffset, hfriction, hcone, hsoc⟩

namespace ContactSet

theorem valid_of_validatePhase_eq_ok {phase : PhaseId} {seen : List String}
    {cs : List (ContactPoint α)}
    (h : validatePhase robot friction cone soc phase seen cs = .ok ()) :
    ∀ c ∈ cs, c.Valid robot friction cone soc := by
  induction cs generalizing seen with
  | nil => simp
  | cons c rest ih =>
    simp only [validatePhase, Except.seq_eq_ok_iff, Except.guard_bind_eq_ok_iff,
      ContactPoint.validate_eq_ok_iff] at h
    obtain ⟨-, hc, hrest⟩ := h
    simpa using ⟨hc, ih hrest⟩

/-- No two contacts that pass the checks of a phase share their name. -/
theorem nodup_of_validatePhase_eq_ok {phase : PhaseId} {seen : List String}
    {cs : List (ContactPoint α)}
    (h : validatePhase robot friction cone soc phase seen cs = .ok ()) :
    (∀ c ∈ cs, c.name ∉ seen) ∧ (cs.map (·.name)).Nodup := by
  induction cs generalizing seen with
  | nil => simp
  | cons c rest ih =>
    simp only [validatePhase, Except.seq_eq_ok_iff, Except.guard_bind_eq_ok_iff] at h
    obtain ⟨hseen, -, hrest⟩ := h
    obtain ⟨hnew, hnodup⟩ := ih hrest
    refine ⟨List.forall_mem_cons.2 ⟨hseen, fun c' hc' hmem => ?_⟩, ?_⟩
    · exact hnew c' hc' (List.mem_cons_of_mem _ hmem)
    · refine List.nodup_cons.2 ⟨fun hmem => ?_, hnodup⟩
      obtain ⟨c', hc', hname⟩ := List.mem_map.1 hmem
      exact hnew c' hc' (hname ▸ List.mem_cons_self)

omit [Scalar α] in
/-- The active contacts of a phase are those of an entry of the set, or there are none. -/
theorem active_cases (s : ContactSet α) (phase : PhaseId) :
    s.active phase = [] ∨ ∃ e ∈ s.phases.entries, s.active phase = e.2 := by
  rw [active, SortedMap.get?]
  cases hfind : s.phases.entries.find? fun e => ¬ e.1 < phase ∧ ¬ phase < e.1 with
  | none => exact .inl rfl
  | some e => exact .inr ⟨e, List.mem_of_find?_eq_some hfind, rfl⟩

omit [Scalar α] in
/-- The active contacts are those of an entry of the set. -/
theorem exists_entry_of_mem_active {s : ContactSet α} {phase : PhaseId} {c : ContactPoint α}
    (hc : c ∈ s.active phase) : ∃ e ∈ s.phases.entries, c ∈ e.2 := by
  obtain hnone | ⟨e, he, hactive⟩ := s.active_cases phase
  · rw [hnone] at hc
    cases hc
  · exact ⟨e, he, hactive ▸ hc⟩

/-- The active contacts of a phase of a validated set have different names. -/
theorem nodup_active_of_validate_eq_ok {s : ContactSet α}
    (h : s.validate robot friction cone soc = .ok ()) (phase : PhaseId) :
    ((s.active phase).map (·.name)).Nodup := by
  obtain hnone | ⟨e, he, hactive⟩ := s.active_cases phase
  · simp [hnone]
  · rw [hactive]
    exact (nodup_of_validatePhase_eq_ok (Except.forM_eq_ok_iff.1 h e he)).2

/-- The active contacts of every phase of a validated set are valid. -/
theorem valid_of_validate_eq_ok {s : ContactSet α}
    (h : s.validate robot friction cone soc = .ok ()) {phase : PhaseId} {c : ContactPoint α}
    (hc : c ∈ s.active phase) : c.Valid robot friction cone soc := by
  obtain ⟨e, he, hce⟩ := exists_entry_of_mem_active hc
  exact valid_of_validatePhase_eq_ok (Except.forM_eq_ok_iff.1 h e he) c hce

end ContactSet

end WholeBody
