import Mathlib
import WholeBody.Contact.Friction
import WholeBody.Proofs.Linear.Entry

/-!
# Friction cones

What the rows of a friction cone say about a force. The load of a force is its part along the two
tangents, each divided by its coefficient, over its normal part. The exact cone bounds the length of
the tangential load by the normal one, and a polygon bounds its projection on every facet.

## Main statements

* `ContactFrame.admits_linear_iff`, `ContactFrame.admits_conic_iff` — the rows in terms of the load.
* `InPolygon.inExactCone` — a polygon with at least three facets is inside the exact cone.
* `linear_cone_safe` — a force that the polygon accepts is pushing and within friction.
-/

namespace WholeBody

open Real

/-- The forces that the rows of a cone accept: `G λ ≤ 0`, or `S λ` in `{(t, x) : ‖x‖ ≤ t}`. -/
def ConeRows.Admits : ConeRows ℝ → Vec3 ℝ → Prop
  | polyhedral G, force => ∀ k < G.rows, (G.mulVec force.toVec).entry k ≤ 0
  | secondOrder S, force =>
    let s := S.mulVec force
    √(s.y ^ 2 + s.z ^ 2) ≤ s.x

/-- The tangential load of `f` is at most its normal one. -/
def InExactCone (f : Vec3 ℝ) : Prop := √(f.x ^ 2 + f.y ^ 2) ≤ f.z

/-- The projection of the tangential load on each of `n` facets is at most the apothem. -/
def InPolygon (n : ℕ) (f : Vec3 ℝ) : Prop :=
  ∀ k < n, cos (2 * π * k / n) * f.x + sin (2 * π * k / n) * f.y ≤ cos (π / n) * f.z

/-- The loads that a form of the cone accepts. -/
def ConeModel.Accepts : ConeModel → Vec3 ℝ → Prop
  | linear n => InPolygon n
  | conic => InExactCone

/-! ### The polygon is inscribed -/

/-- Every direction is within half a facet of the middle of some facet. -/
theorem exists_near_facet (φ : ℝ) {n : ℕ} (hn : 0 < n) :
    ∃ k < n, cos (π / n) ≤ cos (φ - 2 * π * k / n) := by
  have hn' : (0 : ℝ) < n := by exact_mod_cast hn
  -- The nearest facet, counted on without end, is `m`; its number is the remainder by `n`.
  let m : ℤ := round (φ * n / (2 * π))
  have hnear : |φ - 2 * π * m / n| ≤ π / n := by
    have hround : |φ * n / (2 * π) - m| ≤ 1 / 2 := abs_sub_round _
    have hscale : φ - 2 * π * m / n = 2 * π / n * (φ * n / (2 * π) - m) := by
      field_simp
    rw [hscale, abs_mul, abs_of_pos (by positivity)]
    calc 2 * π / n * |φ * n / (2 * π) - m| ≤ 2 * π / n * (1 / 2) := by gcongr
      _ = π / n := by ring
  have hdiv : (n : ℤ) * (m / n) + m % n = m := Int.mul_ediv_add_emod m n
  have hrem : 0 ≤ m % n := Int.emod_nonneg _ (by omega)
  obtain ⟨k, hk⟩ := Int.eq_ofNat_of_zero_le hrem
  have hlt : m % n < n := Int.emod_lt_of_pos _ (by omega)
  refine ⟨k, by omega, ?_⟩
  have hm : (m : ℝ) = n * (m / n : ℤ) + k := by
    rw [hk] at hdiv
    exact_mod_cast hdiv.symm
  have hturn : φ - 2 * π * k / n = φ - 2 * π * m / n + (m / n : ℤ) * (2 * π) := by
    rw [hm]
    field_simp
    ring
  rw [hturn, cos_add_int_mul_two_pi, ← cos_abs (φ - 2 * π * m / n)]
  refine cos_le_cos_of_nonneg_of_le_pi (abs_nonneg _) ?_ hnear
  exact div_le_self pi_pos.le (by exact_mod_cast hn)

theorem apothem_pos {n : ℕ} (hn : 3 ≤ n) : 0 < cos (π / n) := by
  have h3 : (3 : ℝ) ≤ n := by exact_mod_cast hn
  have hle : π / n ≤ π / 3 := by gcongr
  have hpos : 0 < π / n := by positivity
  exact cos_pos_of_mem_Ioo ⟨by linarith [pi_pos], by linarith [pi_pos]⟩

theorem InPolygon.inExactCone {n : ℕ} (hn : 3 ≤ n) {f : Vec3 ℝ} (h : InPolygon n f) :
    InExactCone f := by
  -- The load in polar form: its facet is the one closest to its angle.
  let z : ℂ := ⟨f.x, f.y⟩
  have hx : ‖z‖ * cos z.arg = f.x := Complex.norm_mul_cos_arg z
  have hy : ‖z‖ * sin z.arg = f.y := Complex.norm_mul_sin_arg z
  obtain ⟨k, hk, hcos⟩ := exists_near_facet z.arg (by omega : 0 < n)
  have hfacet := h k hk
  have hproj : cos (2 * π * k / n) * f.x + sin (2 * π * k / n) * f.y =
      ‖z‖ * cos (z.arg - 2 * π * k / n) := by
    rw [← hx, ← hy, cos_sub]
    ring
  have hle : ‖z‖ * cos (π / n) ≤ f.z * cos (π / n) :=
    calc ‖z‖ * cos (π / n) ≤ ‖z‖ * cos (z.arg - 2 * π * k / n) := by gcongr
      _ ≤ cos (π / n) * f.z := hproj ▸ hfacet
      _ = f.z * cos (π / n) := mul_comm _ _
  have hnorm : ‖z‖ = √(f.x ^ 2 + f.y ^ 2) := Complex.norm_eq_sqrt_sq_add_sq z
  rw [InExactCone, ← hnorm]
  exact le_of_mul_le_mul_right hle (apothem_pos hn)

theorem InExactCone.normal_nonneg {f : Vec3 ℝ} (h : InExactCone f) : 0 ≤ f.z :=
  (sqrt_nonneg _).trans h

namespace ContactFrame

variable (frame : ContactFrame ℝ) (friction : Friction ℝ) (force : Vec3 ℝ)

/-- The components of a force, the tangential ones in units of the friction coefficients. -/
noncomputable def load : Vec3 ℝ :=
  let f := frame.components force
  ⟨f.x / friction.coefficients.1, f.y / friction.coefficients.2, f.z⟩

variable {frame friction force}

theorem dot_scaled₁ : (frame.scaled₁ friction).dot force = (frame.load friction force).x := by
  simp only [scaled₁, Vec3.divide, Vec3.dot_eq, load, components]
  ring

theorem dot_scaled₂ : (frame.scaled₂ friction).dot force = (frame.load friction force).y := by
  simp only [scaled₂, Vec3.divide, Vec3.dot_eq, load, components]
  ring

theorem dot_facetRow (n k : ℕ) :
    (frame.facetRow friction n k).dot force =
      cos (2 * π * k / n) * (frame.load friction force).x
        + sin (2 * π * k / n) * (frame.load friction force).y
        - cos (π / n) * (frame.load friction force).z := by
  have hθ : (facetAngle n k : ℝ) = 2 * π * k / n := by
    change ((2 : ℕ) : ℝ) * π * k / n = _
    norm_num
  rw [← dot_scaled₁, ← dot_scaled₂, ← hθ]
  simp only [facetRow, load, components, Vec3.sub_def, Vec3.add_def, Vec3.smul_def, Vec3.dot_eq,
    Scalar.pi_real, Scalar.cos_real, Scalar.sin_real]
  ring

theorem admits_linear_iff (n : ℕ) :
    (frame.coneRows friction (.linear n)).Admits force ↔
      InPolygon n (frame.load friction force) := by
  refine forall₂_congr fun k (hk : k < n) => ?_
  rw [Vec3.entry_mulVec_ofFn _ force hk, dot_facetRow, sub_nonpos]

theorem admits_conic_iff :
    (frame.coneRows friction .conic).Admits force ↔
      InExactCone (frame.load friction force) := by
  simp only [coneRows, ConeRows.Admits, Mat3.mulVec, dot_scaled₁, dot_scaled₂]
  rfl

theorem cols_of_coneRows_eq {cone : ConeModel} {rows : Mat ℝ}
    (h : frame.coneRows friction cone = .polyhedral rows) : rows.cols = 3 := by
  cases cone with
  | linear n =>
    cases h
    rfl
  | conic => cases h

/-- The rows of a cone accept the forces whose load the cone accepts. -/
theorem admits_coneRows_iff (cone : ConeModel) :
    (frame.coneRows friction cone).Admits force ↔ cone.Accepts (frame.load friction force) := by
  cases cone with
  | linear n => exact admits_linear_iff n
  | conic => exact admits_conic_iff

/-- The friction ratio of a force in the exact cone is at most one. -/
theorem frictionRatio_le_one (h : InExactCone (frame.load friction force)) :
    ∃ r, frame.frictionRatio? friction force = some r ∧ r ≤ 1 := by
  let f := frame.load friction force
  have hratio : frame.frictionRatio? friction force =
      if f.z ≤ 0 then if Scalar.IsZero √(f.x ^ 2 + f.y ^ 2) then some 0 else none
      else some (√(f.x ^ 2 + f.y ^ 2) / f.z) := rfl
  rw [hratio]
  by_cases hz : f.z ≤ 0
  · have hzero : √(f.x ^ 2 + f.y ^ 2) = 0 := le_antisymm (h.trans hz) (sqrt_nonneg _)
    exact ⟨0, by rw [if_pos hz, if_pos (Scalar.isZero_real.2 hzero)], zero_le_one⟩
  · exact ⟨_, if_neg hz, (div_le_one (not_le.1 hz)).2 h⟩

/-- The frame of a level ground. -/
theorem ofNormal_vertical {h : ℝ} (hh : 0 < h) :
    ofNormal ⟨0, 0, h⟩ = ⟨.unitX, .unitY, .unitZ⟩ := by
  have hnormal : (⟨0, 0, h⟩ : Vec3 ℝ).normalize = .unitZ := by
    simp [Vec3.normalize, Vec3.norm_vertical hh.le, Vec3.divide, Vec3.unitZ, hh.ne']
  have hseed : Vec3.normalize ((Vec3.unitX : Vec3 ℝ) -
      (Vec3.unitZ : Vec3 ℝ).dot .unitX • (Vec3.unitZ : Vec3 ℝ)) = .unitX := by
    simp [Vec3.normalize, Vec3.norm, Vec3.divide, Vec3.dot_eq, Vec3.sub_def, Vec3.smul_def,
      Vec3.unitX, Vec3.unitZ]
  have hsteep : Scalar.abs (Vec3.unitZ : Vec3 ℝ).x < Scalar.ofDecimal 9 1 := by
    change |(0 : ℝ)| < Scalar.ofDecimal 9 1
    norm_num [Scalar.ofDecimal_real]
  have hcross : (Vec3.unitZ : Vec3 ℝ).cross .unitX = .unitY := by
    simp [Vec3.cross, Vec3.unitX, Vec3.unitY, Vec3.unitZ]
  simp only [ofNormal, Vec3.tangents, hnormal, if_pos hsteep, hseed, hcross]

end ContactFrame

/-- A polygon with at least three facets accepts only forces that push, whose tangential part the
friction can hold: the exact cone of the same contact accepts them too, and their friction ratio is
at most one. -/
theorem linear_cone_safe (normal : Vec3 ℝ) (friction : Friction ℝ) {facets : ℕ} (hn : 3 ≤ facets)
    (force : Vec3 ℝ) :
    let frame := ContactFrame.ofNormal normal
    let f := frame.components force
    let μ := friction.coefficients
    (frame.coneRows friction (.linear facets)).Admits force →
      0 ≤ f.z ∧ √((f.x / μ.1) ^ 2 + (f.y / μ.2) ^ 2) ≤ f.z ∧
        (frame.coneRows friction .conic).Admits force ∧
        ∃ r, frame.frictionRatio? friction force = some r ∧ r ≤ 1 := by
  intro frame f μ hadm
  have hexact : InExactCone (frame.load friction force) :=
    (ContactFrame.admits_linear_iff facets |>.1 hadm).inExactCone hn
  exact ⟨hexact.normal_nonneg, hexact, ContactFrame.admits_conic_iff.2 hexact,
    ContactFrame.frictionRatio_le_one hexact⟩

theorem linear_cone_safe_four_facets :
    let friction : Friction ℝ := .anisotropic (1 / 2) (1 / 4)
    let frame := ContactFrame.ofNormal (⟨0, 0, 2⟩ : Vec3 ℝ)
    let force : Vec3 ℝ := ⟨1 / 10, 0, 1⟩
    let f := frame.components force
    (frame.coneRows friction (.linear 4)).Admits force ∧
      (0 ≤ f.z ∧ √((f.x / (1 / 2)) ^ 2 + (f.y / (1 / 4)) ^ 2) ≤ f.z ∧
        (frame.coneRows friction .conic).Admits force ∧
        ∃ r, frame.frictionRatio? friction force = some r ∧ r ≤ 1) := by
  intro friction frame force f
  have hload : frame.load friction force = ⟨1 / 5, 0, 1⟩ := by
    simp only [frame, ContactFrame.ofNormal_vertical two_pos]
    simp [ContactFrame.load, ContactFrame.components, Vec3.dot_eq, Vec3.unitX, Vec3.unitY,
      Vec3.unitZ, force, friction, Friction.coefficients]
    norm_num
  have hadm : (frame.coneRows friction (.linear 4)).Admits force := by
    rw [ContactFrame.admits_linear_iff, hload]
    intro k _
    have hcos : cos (2 * π * k / (4 : ℕ)) ≤ 1 := cos_le_one _
    have hapothem : cos (π / (4 : ℕ)) = √2 / 2 := by
      rw [Nat.cast_ofNat, cos_pi_div_four]
    have hroot : 1 ≤ √2 := by
      rw [Real.one_le_sqrt]
      norm_num
    rw [hapothem]
    dsimp only
    linarith
  exact ⟨hadm, linear_cone_safe ⟨0, 0, 2⟩ friction (by decide) force hadm⟩

end WholeBody
