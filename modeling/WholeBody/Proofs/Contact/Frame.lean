import Mathlib
import WholeBody.Proofs.Contact.FrictionCone
import WholeBody.Proofs.Linear.Vec3
import WholeBody.Proofs.Validation

/-!
# Contact frames

A frame is made from the normal of its contact alone. Both tangents are perpendicular to the normal,
so a force along the normal has no tangential load, and every friction cone accepts it.

## Main statements

* `Vec3.normalize_dot_self`, `Vec3.tangents_dot_normalize` — the normal and the tangents.
* `ContactFrame.load_normal` — the load of a force along the normal.
* `ConeModel.Valid.accepts_normal` — it is in every cone.
-/

namespace WholeBody

namespace Vec3

variable {v : Vec3 ℝ}

theorem normalize_dot_self (h : v.norm ≠ 0) : v.normalize.dot v.normalize = 1 := by
  rw [normalize, divide_dot, dot_comm, divide_dot, ← norm_mul_self]
  field_simp

/-- Both tangents are perpendicular to the normal. -/
theorem tangents_dot_normalize (h : v.norm ≠ 0) :
    v.tangents.1.dot v.normalize = 0 ∧ v.tangents.2.dot v.normalize = 0 := by
  refine ⟨?_, cross_dot_self _ _⟩
  rw [tangents, normalize, divide_dot, sub_dot, smul_dot, normalize_dot_self h,
    dot_comm v.normalize, mul_one, sub_self, zero_div]

end Vec3

namespace ContactFrame

variable {normal : Vec3 ℝ}

theorem ofNormal_normal_dot (h : normal.norm ≠ 0) (least : ℝ) :
    (ofNormal normal).normal.dot (least • (ofNormal normal).normal) = least := by
  rw [Vec3.dot_smul, ofNormal, Vec3.normalize_dot_self h, mul_one]

/-- A force along the normal has no tangential load. -/
theorem load_normal (h : normal.norm ≠ 0) (friction : Friction ℝ) (least : ℝ) :
    (ofNormal normal).load friction (least • (ofNormal normal).normal) = ⟨0, 0, least⟩ := by
  obtain ⟨h₁, h₂⟩ := Vec3.tangents_dot_normalize h
  have hnormal := ofNormal_normal_dot h least
  simp only [ofNormal] at hnormal ⊢
  simp [load, components, hnormal, Vec3.dot_smul, h₁, h₂]

end ContactFrame

/-- A valid cone accepts every load that only pushes. -/
theorem ConeModel.Valid.accepts_normal {cone : ConeModel} (h : cone.Valid) {least : ℝ}
    (hleast : 0 ≤ least) : cone.Accepts ⟨0, 0, least⟩ := by
  cases cone with
  | linear n =>
    intro k _
    have hpos := apothem_pos (h n rfl)
    simpa using mul_nonneg hpos.le hleast
  | conic => simpa [Accepts, InExactCone] using hleast

end WholeBody
