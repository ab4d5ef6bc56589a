import Mathlib
import WholeBody.Proofs.Contact.Inscribed
import WholeBody.Proofs.Contact.Orthonormal

/-!
# The exact cone and the friction ratio

The ratio of a force alone does not say whether the exact cone holds it: a force that only pulls has
no tangential load, hence the ratio zero. A force is in the cone exactly when it does not pull and
its ratio is at most one, and this depends on its direction alone.

## Main statements

* `ContactFrame.frictionRatio?_of_pos`, `ContactFrame.frictionRatio?_of_nonpos` — the ratio of a
  force that pushes, and of one that does not.
* `ContactFrame.inExactCone_load_iff` — the cone in terms of the ratio.
* `ContactFrame.frictionRatio?_smul` — the ratio of a multiple of a force.
* `conic_cone_iff_ratio` — the two descriptions of the cone for every contact.
-/

namespace WholeBody

open Real

/-- The length of the tangential part. -/
noncomputable def Vec3.tangential (f : Vec3 ℝ) : ℝ := √(f.x ^ 2 + f.y ^ 2)

namespace Vec3

variable {f : Vec3 ℝ} {c : ℝ}

theorem tangential_nonneg (f : Vec3 ℝ) : 0 ≤ f.tangential := sqrt_nonneg _

theorem tangential_smul (hc : 0 ≤ c) (f : Vec3 ℝ) : (c • f).tangential = c * f.tangential := by
  have hsq : (c * f.x) ^ 2 + (c * f.y) ^ 2 = c ^ 2 * (f.x ^ 2 + f.y ^ 2) := by ring
  rw [tangential, tangential, smul_def, hsq, sqrt_mul (sq_nonneg c), sqrt_sq hc]

theorem tangential_eq_zero_iff : f.tangential = 0 ↔ f.x = 0 ∧ f.y = 0 := by
  rw [tangential, sqrt_eq_zero (by positivity)]
  constructor
  · intro hsum
    exact ⟨pow_eq_zero_iff two_ne_zero |>.1 (by linarith [sq_nonneg f.x, sq_nonneg f.y]),
      pow_eq_zero_iff two_ne_zero |>.1 (by linarith [sq_nonneg f.x, sq_nonneg f.y])⟩
  · rintro ⟨hx, hy⟩
    rw [hx, hy]
    norm_num

end Vec3

namespace ContactFrame

variable {frame : ContactFrame ℝ} {friction : Friction ℝ} {force : Vec3 ℝ} {c : ℝ}

/-! ### The ratio -/

theorem frictionRatio?_of_pos (h : 0 < (frame.load friction force).z) :
    frame.frictionRatio? friction force =
      some ((frame.load friction force).tangential / (frame.load friction force).z) :=
  if_neg (not_le.2 h)

/-- A force that does not push has a ratio, zero, as long as there is no tangential load. -/
theorem frictionRatio?_of_nonpos (h : (frame.load friction force).z ≤ 0) :
    frame.frictionRatio? friction force =
      if (frame.load friction force).tangential = 0 then some 0 else none := by
  refine (if_pos h).trans ?_
  exact if_congr Scalar.isZero_real rfl rfl

theorem inExactCone_load_iff : InExactCone (frame.load friction force) ↔
    0 ≤ (frame.load friction force).z ∧
      ∃ r, frame.frictionRatio? friction force = some r ∧ r ≤ 1 := by
  constructor
  · exact fun h => ⟨h.normal_nonneg, frictionRatio_le_one h⟩
  · rintro ⟨hz, r, hr, hle⟩
    change (frame.load friction force).tangential ≤ (frame.load friction force).z
    obtain hpos | hzero := hz.lt_or_eq
    · rw [frictionRatio?_of_pos hpos] at hr
      cases hr
      exact (div_le_one hpos).1 hle
    · -- Without a normal force there is a ratio only if there is nothing to hold.
      rw [frictionRatio?_of_nonpos hzero.ge] at hr
      split at hr
      · rename_i hload
        rw [hload, ← hzero]
      · cases hr

/-! ### Multiples of a force -/

theorem load_smul (c : ℝ) (force : Vec3 ℝ) :
    frame.load friction (c • force) = c • frame.load friction force := by
  simp only [load, components, Vec3.dot_smul, mul_div_assoc]
  rfl

theorem inExactCone_load_smul (hc : 0 < c) : InExactCone (frame.load friction (c • force)) ↔
    InExactCone (frame.load friction force) := by
  rw [load_smul]
  change (c • frame.load friction force).tangential ≤ c * (frame.load friction force).z ↔ _
  rw [Vec3.tangential_smul hc.le, mul_le_mul_iff_right₀ hc]
  rfl

theorem frictionRatio?_smul (hc : 0 < c) : frame.frictionRatio? friction (c • force) =
    frame.frictionRatio? friction force := by
  have hz : (frame.load friction (c • force)).z = c * (frame.load friction force).z := by
    rw [load_smul]
    rfl
  have htangential : (frame.load friction (c • force)).tangential =
      c * (frame.load friction force).tangential := by
    rw [load_smul, Vec3.tangential_smul hc.le]
  obtain hnonpos | hpos := le_or_gt (frame.load friction force).z 0
  · have hnonpos' : (frame.load friction (c • force)).z ≤ 0 :=
      hz.trans_le (mul_nonpos_of_nonneg_of_nonpos hc.le hnonpos)
    rw [frictionRatio?_of_nonpos hnonpos, frictionRatio?_of_nonpos hnonpos', htangential]
    simp only [mul_eq_zero, hc.ne', false_or]
  · have hpos' : 0 < (frame.load friction (c • force)).z := hz.symm ▸ mul_pos hc hpos
    rw [frictionRatio?_of_pos hpos, frictionRatio?_of_pos hpos', htangential, hz,
      mul_div_mul_left _ _ hc.ne']

/-! ### Forces along the normal -/

/-- No tangential load is left exactly when a force is along the normal. -/
theorem IsOrthonormal.tangential_load_eq_zero_iff (h : frame.IsOrthonormal)
    (h₁ : 0 < friction.coefficients.1) (h₂ : 0 < friction.coefficients.2) :
    (frame.load friction force).tangential = 0 ↔
      force = (frame.components force).z • frame.normal := by
  have hload : (frame.load friction force).tangential = 0 ↔
      (frame.components force).x = 0 ∧ (frame.components force).y = 0 := by
    rw [Vec3.tangential_eq_zero_iff]
    simp [load, h₁.ne', h₂.ne']
  rw [hload]
  constructor
  · rintro ⟨hx, hy⟩
    have hsum := h.sum_components force
    simp only [hx, hy, Vec3.zero_smul, Vec3.zero_add] at hsum
    exact hsum.symm
  · intro hforce
    generalize (frame.components force).z = least at hforce
    rw [hforce]
    simp only [components, Vec3.dot_smul, h.t₁_normal, h.t₂_normal, mul_zero, and_self]

end ContactFrame

/-- The rows of the exact cone accept a force exactly when it does not pull and its friction ratio is
at most one. A force that does not push has a ratio, which is zero, exactly when it is along the
normal, and only the force zero of these is accepted. Positive multiples of a force are accepted
alike, push or pull alike and have one ratio. -/
theorem conic_cone_iff_ratio {normal : Vec3 ℝ} (hnormal : normal ≠ 0) {friction : Friction ℝ}
    (h₁ : 0 < friction.coefficients.1) (h₂ : 0 < friction.coefficients.2) (force : Vec3 ℝ) :
    let frame := ContactFrame.ofNormal normal
    let f := frame.components force
    let cone := frame.coneRows friction .conic
    (cone.Admits force ↔ 0 ≤ f.z ∧ ∃ r, frame.frictionRatio? friction force = some r ∧ r ≤ 1) ∧
    (f.z ≤ 0 →
      (frame.frictionRatio? friction force = some 0 ↔ force = f.z • frame.normal) ∧
      (frame.frictionRatio? friction force = none ↔ force ≠ f.z • frame.normal) ∧
      (cone.Admits force ↔ force = 0)) ∧
    ∀ c : ℝ, 0 < c →
      (cone.Admits (c • force) ↔ cone.Admits force) ∧
      (0 ≤ (frame.components (c • force)).z ↔ 0 ≤ f.z) ∧
      frame.frictionRatio? friction (c • force) = frame.frictionRatio? friction force := by
  intro frame f cone
  have hframe : frame.IsOrthonormal := ContactFrame.isOrthonormal_ofNormal hnormal
  have hadmits (force : Vec3 ℝ) : cone.Admits force ↔ InExactCone (frame.load friction force) :=
    ContactFrame.admits_conic_iff
  have halong : (frame.load friction force).tangential = 0 ↔ force = f.z • frame.normal :=
    hframe.tangential_load_eq_zero_iff h₁ h₂
  simp only [hadmits]
  refine ⟨ContactFrame.inExactCone_load_iff, fun hz => ?_, fun c hc => ?_⟩
  · have hratio : frame.frictionRatio? friction force =
        if (frame.load friction force).tangential = 0 then some 0 else none :=
      ContactFrame.frictionRatio?_of_nonpos hz
    refine ⟨?_, ?_, ?_⟩
    · simp [hratio, halong, f]
    · simp [hratio, halong, f]
    · constructor
      · intro hin
        have hzero : f.z = 0 := hz.antisymm hin.normal_nonneg
        have hload : (frame.load friction force).tangential = 0 :=
          (hin.trans hz).antisymm (Vec3.tangential_nonneg _)
        have hforce := halong.1 hload
        rwa [hzero, Vec3.zero_smul] at hforce
      · rintro rfl
        simp [InExactCone, ContactFrame.load, ContactFrame.components, Vec3.dot_eq, Vec3.zero_def]
  · refine ⟨ContactFrame.inExactCone_load_smul hc, ?_, ContactFrame.frictionRatio?_smul hc⟩
    have hscale : (frame.components (c • force)).z = c * f.z := Vec3.dot_smul _ _ _
    rw [hscale, mul_nonneg_iff_of_pos_left hc]

/-- On level ground: a force that only pulls, and one on the edge of an elliptic cone. -/
theorem conic_cone_iff_ratio_edge :
    let friction : Friction ℝ := .anisotropic (1 / 2) (1 / 4)
    let frame := ContactFrame.ofNormal (⟨0, 0, 2⟩ : Vec3 ℝ)
    let cone := frame.coneRows friction .conic
    let pull : Vec3 ℝ := ⟨0, 0, -1⟩
    let edge : Vec3 ℝ := ⟨3 / 10, 1 / 5, 1⟩
    (frame.frictionRatio? friction pull = some 0 ∧ ¬ cone.Admits pull) ∧
      frame.frictionRatio? friction edge = some 1 ∧ cone.Admits edge ∧
      cone.Admits ((5 : ℝ) • edge) := by
  intro friction frame cone pull edge
  have hcomponents (force : Vec3 ℝ) : frame.components force = force :=
    ContactFrame.components_vertical two_pos force
  have hnormal : (⟨0, 0, 2⟩ : Vec3 ℝ) ≠ 0 := fun hzero => by
    have hz : (2 : ℝ) = 0 := congrArg Vec3.z hzero
    norm_num at hz
  have h₁ : 0 < friction.coefficients.1 := by norm_num [friction, Friction.coefficients]
  have h₂ : 0 < friction.coefficients.2 := by norm_num [friction, Friction.coefficients]
  obtain ⟨-, hpull, -⟩ := conic_cone_iff_ratio hnormal h₁ h₂ pull
  obtain ⟨hedge, -, hscale⟩ := conic_cone_iff_ratio hnormal h₁ h₂ edge
  have hz : (frame.components pull).z ≤ 0 := by
    rw [hcomponents]
    norm_num [pull]
  have hunit : frame.normal = .unitZ :=
    congrArg ContactFrame.normal (ContactFrame.ofNormal_vertical two_pos)
  have hone : frame.frictionRatio? friction edge = some 1 := by
    have hload : frame.load friction edge = ⟨3 / 5, 4 / 5, 1⟩ := by
      simp only [ContactFrame.load, hcomponents]
      norm_num [edge, friction, Friction.coefficients]
    have hlength : (frame.load friction edge).tangential = 1 := by
      rw [hload, Vec3.tangential]
      norm_num
    rw [ContactFrame.frictionRatio?_of_pos (by rw [hload]; exact one_pos), hlength, hload, div_one]
  have hin : cone.Admits edge := by
    refine hedge.2 ⟨?_, 1, hone, le_rfl⟩
    rw [hcomponents]
    exact zero_le_one
  refine ⟨⟨(hpull hz).1.2 ?_, fun hadm => ?_⟩, hone, hin, (hscale 5 (by norm_num)).1.2 hin⟩
  · rw [hcomponents, hunit]
    simp [pull, Vec3.unitZ, Vec3.smul_def]
  · have hzero : (-1 : ℝ) = 0 := congrArg Vec3.z ((hpull hz).2.2.1 hadm)
    norm_num at hzero

end WholeBody
