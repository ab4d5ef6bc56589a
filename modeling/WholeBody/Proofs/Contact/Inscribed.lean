import Mathlib
import WholeBody.Proofs.Contact.FrictionCone

/-!
# How much of the exact cone a polygon keeps

The polygon is inscribed in the exact cone. It contains the cone that is narrower by the apothem, it
touches the exact cone at its vertices, which lie half way between two facets, and in the end it
contains every load that is strictly inside.

## Main statements

* `InPolygon.of_norm_le` — the loads that are inside by the apothem.
* `inPolygon_vertex` — the vertices.
* `exists_inPolygon_of_lt` — the loads strictly inside.
* `linear_cone_tight` — the same of the forces that a contact accepts.
-/

namespace WholeBody

open Real Filter

/-- A projection on a direction is at most the length. -/
theorem cos_mul_add_sin_mul_le (θ x y : ℝ) : cos θ * x + sin θ * y ≤ √(x ^ 2 + y ^ 2) := by
  refine le_sqrt_of_sq_le ?_
  have hunit : cos θ ^ 2 + sin θ ^ 2 = 1 := cos_sq_add_sin_sq θ
  calc (cos θ * x + sin θ * y) ^ 2
      ≤ (cos θ * x + sin θ * y) ^ 2 + (cos θ * y - sin θ * x) ^ 2 :=
        le_add_of_nonneg_right (sq_nonneg _)
    _ = (cos θ ^ 2 + sin θ ^ 2) * (x ^ 2 + y ^ 2) := by ring
    _ = x ^ 2 + y ^ 2 := by rw [hunit, one_mul]

theorem InPolygon.of_norm_le {n : ℕ} {f : Vec3 ℝ}
    (h : √(f.x ^ 2 + f.y ^ 2) ≤ cos (π / n) * f.z) : InPolygon n f :=
  fun _ _ => (cos_mul_add_sin_mul_le _ _ _).trans h

/-- An odd multiple of half a facet is at least half a facet away from every full turn. -/
theorem cos_odd_mul_le {m : ℤ} (hm : Odd m) {n : ℕ} (hn : 0 < n) :
    cos (m * π / n) ≤ cos (π / n) := by
  have hn' : (0 : ℝ) < n := by exact_mod_cast hn
  -- The nearest full turn is `r`; what is left of the angle is the odd number `d` of half facets.
  let r : ℤ := round (m / (2 * n) : ℝ)
  let d : ℤ := m - 2 * n * r
  have hturn : m * π / n = d * π / n + r * (2 * π) := by
    simp only [d]
    push_cast
    field_simp
    ring
  have hodd : Odd d := by
    refine hm.sub_even ?_
    rw [mul_assoc]
    exact even_two_mul _
  have hleast : (1 : ℝ) ≤ |(d : ℝ)| := by
    have hne : d ≠ 0 := fun hzero => by simp [hzero] at hodd
    exact_mod_cast Int.one_le_abs hne
  have hmost : |(d : ℝ)| ≤ n := by
    have hround : |(m : ℝ) / (2 * n) - r| ≤ 1 / 2 := abs_sub_round _
    have hscale : (d : ℝ) = 2 * n * (m / (2 * n) - r) := by
      simp only [d]
      push_cast
      field_simp
    rw [hscale, abs_mul, abs_of_pos (by positivity)]
    calc 2 * (n : ℝ) * |(m : ℝ) / (2 * n) - r| ≤ 2 * n * (1 / 2) := by gcongr
      _ = n := by ring
  have habs : |d * π / n| = |(d : ℝ)| * (π / n) := by
    rw [mul_div_assoc, abs_mul, abs_of_pos (by positivity : 0 < π / n)]
  rw [hturn, cos_add_int_mul_two_pi, ← cos_abs (d * π / n), habs]
  refine cos_le_cos_of_nonneg_of_le_pi (by positivity) ?_ ?_
  · calc |(d : ℝ)| * (π / n) ≤ n * (π / n) := by gcongr
      _ = π := mul_div_cancel₀ π hn'.ne'
  · exact le_mul_of_one_le_left (by positivity) hleast

/-- A load whose tangential part points between two facets, half way, is a vertex: it is on the
exact cone and in the polygon. -/
theorem inPolygon_vertex {n : ℕ} {f : Vec3 ℝ} (hz : 0 ≤ f.z) {k : ℤ}
    (hx : f.x = f.z * cos ((2 * k + 1) * π / n)) (hy : f.y = f.z * sin ((2 * k + 1) * π / n)) :
    √(f.x ^ 2 + f.y ^ 2) = f.z ∧ InPolygon n f := by
  constructor
  · have hsq : f.x ^ 2 + f.y ^ 2 = f.z ^ 2 := by
      rw [hx, hy, mul_pow, mul_pow, ← mul_add, cos_sq_add_sin_sq, mul_one]
    rw [hsq, sqrt_sq hz]
  · intro j hj
    have hodd : Odd (2 * (j - k) - 1 : ℤ) := (even_two_mul _).sub_odd odd_one
    have hangle : 2 * π * j / n - (2 * k + 1) * π / n = ((2 * (j - k) - 1 : ℤ) : ℝ) * π / n := by
      push_cast
      ring
    have hproj : cos (2 * π * j / n) * f.x + sin (2 * π * j / n) * f.y =
        cos (((2 * (j - k) - 1 : ℤ) : ℝ) * π / n) * f.z := by
      rw [← hangle, cos_sub, hx, hy]
      ring
    rw [hproj]
    exact mul_le_mul_of_nonneg_right (cos_odd_mul_le hodd (by omega)) hz

/-- A polygon with enough facets contains a load that is strictly inside the exact cone. -/
theorem exists_inPolygon_of_lt {f : Vec3 ℝ} (h : √(f.x ^ 2 + f.y ^ 2) < f.z) :
    ∃ N : ℕ, ∀ n ≥ N, InPolygon n f := by
  have happroach : Tendsto (fun n : ℕ => cos (π / n) * f.z) atTop (nhds f.z) := by
    have hcos : Tendsto (fun n : ℕ => cos (π / n)) atTop (nhds (cos 0)) :=
      (continuous_cos.tendsto 0).comp (tendsto_const_div_atTop_nhds_zero_nat π)
    rw [cos_zero] at hcos
    simpa using hcos.mul_const f.z
  obtain ⟨N, hN⟩ := eventually_atTop.1 (happroach.eventually_const_lt h)
  exact ⟨N, fun n hn => .of_norm_le (hN n hn).le⟩

/-- The frame of a level ground is that of the world. -/
theorem ContactFrame.components_vertical {h : ℝ} (hh : 0 < h) (force : Vec3 ℝ) :
    (ofNormal ⟨0, 0, h⟩).components force = force := by
  rw [ofNormal_vertical hh]
  simp [components, Vec3.dot_eq, Vec3.unitX, Vec3.unitY, Vec3.unitZ]

/-- A polygon does not give friction away. It accepts every force whose load is inside the exact cone
by the apothem, and every force on the exact cone whose tangential part points at a vertex; and every
force strictly inside the exact cone is accepted by all polygons with enough facets. -/
theorem linear_cone_tight (normal : Vec3 ℝ) (friction : Friction ℝ) (force : Vec3 ℝ) :
    let frame := ContactFrame.ofNormal normal
    let f := frame.components force
    let μ := friction.coefficients
    (∀ n : ℕ, √((f.x / μ.1) ^ 2 + (f.y / μ.2) ^ 2) ≤ cos (π / n) * f.z →
      (frame.coneRows friction (.linear n)).Admits force) ∧
    (∀ (n : ℕ) (k : ℤ), 0 ≤ f.z → f.x / μ.1 = f.z * cos ((2 * k + 1) * π / n) →
      f.y / μ.2 = f.z * sin ((2 * k + 1) * π / n) →
      √((f.x / μ.1) ^ 2 + (f.y / μ.2) ^ 2) = f.z ∧
        (frame.coneRows friction (.linear n)).Admits force) ∧
    (√((f.x / μ.1) ^ 2 + (f.y / μ.2) ^ 2) < f.z →
      ∃ N : ℕ, ∀ n ≥ N, (frame.coneRows friction (.linear n)).Admits force) := by
  intro frame f μ
  simp only [ContactFrame.admits_linear_iff]
  exact ⟨fun n hle => InPolygon.of_norm_le (f := frame.load friction force) hle,
    fun n k hz hx hy => inPolygon_vertex (f := frame.load friction force) hz hx hy,
    fun hlt => exists_inPolygon_of_lt (f := frame.load friction force) hlt⟩

/-- A square on level ground: a force inside by the apothem, which is also strictly inside the exact
cone, and the vertex between the first two facets. -/
theorem linear_cone_tight_four_facets :
    let friction : Friction ℝ := .anisotropic (1 / 2) (1 / 4)
    let frame := ContactFrame.ofNormal (⟨0, 0, 2⟩ : Vec3 ℝ)
    let inside : Vec3 ℝ := ⟨1 / 4, 0, 1⟩
    let vertex : Vec3 ℝ := ⟨cos (π / 4) / 2, sin (π / 4) / 4, 1⟩
    (frame.coneRows friction (.linear 4)).Admits inside ∧
      (frame.coneRows friction (.linear 4)).Admits vertex ∧
      ∃ N : ℕ, ∀ n ≥ N, (frame.coneRows friction (.linear n)).Admits inside := by
  intro friction frame inside vertex
  have hcomponents (force : Vec3 ℝ) : frame.components force = force :=
    ContactFrame.components_vertical two_pos force
  have hlength : √((1 / 4 / (1 / 2) : ℝ) ^ 2 + (0 / (1 / 4)) ^ 2) = 1 / 2 := by
    rw [sqrt_eq_iff_mul_self_eq_of_pos (by norm_num)]
    norm_num
  have hroot : 1 ≤ √2 := by
    rw [one_le_sqrt]
    norm_num
  have hangle : (2 * ((0 : ℤ) : ℝ) + 1) * π / ((4 : ℕ) : ℝ) = π / 4 := by
    push_cast
    ring
  have hinside := linear_cone_tight ⟨0, 0, 2⟩ friction inside
  have hvertex := linear_cone_tight ⟨0, 0, 2⟩ friction vertex
  simp only [hcomponents, friction, Friction.coefficients, inside, frame] at hinside
  simp only [hcomponents, friction, Friction.coefficients, vertex, frame] at hvertex
  refine ⟨hinside.1 4 ?_, (hvertex.2.1 4 0 zero_le_one ?_ ?_).2, hinside.2.2 ?_⟩
  · rw [hlength, Nat.cast_ofNat, cos_pi_div_four]
    linarith
  · rw [hangle]
    ring
  · rw [hangle]
    ring
  · rw [hlength]
    norm_num

end WholeBody
