import Mathlib
import WholeBody.Proofs.Linear.Quaternion

/-!
# Rates of change

Vectors and orientations that change with time. A rate is a derivative of every component, among the
times at which a motion is looked at.

## Main statements

* `Vec3.HasRate.cross`, `Vec3.HasRate.dot`, `Vec3.HasRate.smul` — the product rules.
* `Quaternion.HasRate.normalize` — normalizing does not change how an orientation spins.
* `Quaternion.HasRate.rotate` — a vector fixed to a spinning body changes at the rate `ω × r`.
-/

namespace WholeBody

variable {times : Set ℝ} {t : ℝ}

namespace Vec3

/-- The vector `f` changes at the rate `f'` at a time, among the given times. -/
structure HasRate (f : ℝ → Vec3 ℝ) (f' : Vec3 ℝ) (times : Set ℝ) (t : ℝ) : Prop where
  x : HasDerivWithinAt (fun τ => (f τ).x) f'.x times t
  y : HasDerivWithinAt (fun τ => (f τ).y) f'.y times t
  z : HasDerivWithinAt (fun τ => (f τ).z) f'.z times t

variable {f g : ℝ → Vec3 ℝ} {f' g' : Vec3 ℝ} {c : ℝ → ℝ} {c' : ℝ}

theorem hasRate_const (v : Vec3 ℝ) : HasRate (fun _ => v) 0 times t :=
  ⟨hasDerivWithinAt_const .., hasDerivWithinAt_const .., hasDerivWithinAt_const ..⟩

theorem HasRate.add (hf : HasRate f f' times t) (hg : HasRate g g' times t) :
    HasRate (fun τ => f τ + g τ) (f' + g') times t :=
  ⟨hf.x.add hg.x, hf.y.add hg.y, hf.z.add hg.z⟩

theorem HasRate.const_smul (hf : HasRate f f' times t) (k : ℝ) :
    HasRate (fun τ => k • f τ) (k • f') times t :=
  ⟨hf.x.const_mul k, hf.y.const_mul k, hf.z.const_mul k⟩

theorem HasRate.smul (hc : HasDerivWithinAt c c' times t) (hf : HasRate f f' times t) :
    HasRate (fun τ => c τ • f τ) (c' • f t + c t • f') times t :=
  ⟨hc.mul hf.x, hc.mul hf.y, hc.mul hf.z⟩

theorem HasRate.cross (hf : HasRate f f' times t) (hg : HasRate g g' times t) :
    HasRate (fun τ => (f τ).cross (g τ)) (f'.cross (g t) + (f t).cross g') times t := by
  refine ⟨?_, ?_, ?_⟩
  · refine ((hf.y.mul hg.z).sub (hf.z.mul hg.y)).congr_deriv ?_
    simp only [Vec3.cross, add_def]
    ring
  · refine ((hf.z.mul hg.x).sub (hf.x.mul hg.z)).congr_deriv ?_
    simp only [Vec3.cross, add_def]
    ring
  · refine ((hf.x.mul hg.y).sub (hf.y.mul hg.x)).congr_deriv ?_
    simp only [Vec3.cross, add_def]
    ring

theorem HasRate.cross_const (hf : HasRate f f' times t) (v : Vec3 ℝ) :
    HasRate (fun τ => (f τ).cross v) (f'.cross v) times t := by
  have hzero : f'.cross v + (f t).cross 0 = f'.cross v := by
    simp [Vec3.cross, add_def, zero_def]
  exact hzero ▸ hf.cross (hasRate_const v)

theorem HasRate.dot (hf : HasRate f f' times t) (hg : HasRate g g' times t) :
    HasDerivWithinAt (fun τ => (f τ).dot (g τ)) (f'.dot (g t) + (f t).dot g') times t := by
  refine (((hf.x.mul hg.x).add (hf.y.mul hg.y)).add (hf.z.mul hg.z)).congr_deriv ?_
  simp only [dot_eq]
  ring

theorem HasRate.const_mulVec (hf : HasRate f f' times t) (m : Mat3 ℝ) :
    HasRate (fun τ => m.mulVec (f τ)) (m.mulVec f') times t := by
  have hrow (row : Vec3 ℝ) :
      HasDerivWithinAt (fun τ => row.dot (f τ)) (row.dot f') times t := by
    refine ((hasRate_const row).dot hf).congr_deriv ?_
    simp [dot_eq, zero_def]
  exact ⟨hrow m.row₁, hrow m.row₂, hrow m.row₃⟩

/-- Vectors that agree at all times change alike. -/
theorem HasRate.congr (hf : HasRate f f' times t) (h : ∀ τ ∈ times, g τ = f τ) (ht : t ∈ times) :
    HasRate g f' times t :=
  ⟨hf.x.congr (fun τ hτ => by rw [h τ hτ]) (by rw [h t ht]),
    hf.y.congr (fun τ hτ => by rw [h τ hτ]) (by rw [h t ht]),
    hf.z.congr (fun τ hτ => by rw [h τ hτ]) (by rw [h t ht])⟩

theorem HasRate.add_const (hf : HasRate f f' times t) (v : Vec3 ℝ) :
    HasRate (fun τ => f τ + v) f' times t :=
  ⟨hf.x.add_const v.x, hf.y.add_const v.y, hf.z.add_const v.z⟩

end Vec3

namespace Quaternion

/-- The quaternion `f` changes at the rate `f'` at a time, among the given times. -/
structure HasRate (f : ℝ → Quaternion ℝ) (f' : Quaternion ℝ) (times : Set ℝ) (t : ℝ) : Prop where
  w : HasDerivWithinAt (fun τ => (f τ).w) f'.w times t
  x : HasDerivWithinAt (fun τ => (f τ).x) f'.x times t
  y : HasDerivWithinAt (fun τ => (f τ).y) f'.y times t
  z : HasDerivWithinAt (fun τ => (f τ).z) f'.z times t

/-- The rate of an orientation with the angular velocity `ω` in world frame: the half of `ω` as a
quaternion, times the orientation. -/
def spin {α : Type} [Scalar α] (ω : Vec3 α) (q : Quaternion α) : Quaternion α :=
  ofParts 0 (ω.divide (Scalar.double 1)) * q

variable {q : ℝ → Quaternion ℝ} {q' : Quaternion ℝ} {ω : Vec3 ℝ}

theorem spin_eq (ω : Vec3 ℝ) (p : Quaternion ℝ) :
    spin ω p = ⟨(-(ω.x * p.x) - ω.y * p.y - ω.z * p.z) / 2, (ω.x * p.w + ω.y * p.z - ω.z * p.y) / 2,
      (ω.y * p.w + ω.z * p.x - ω.x * p.z) / 2, (ω.z * p.w + ω.x * p.y - ω.y * p.x) / 2⟩ := by
  simp only [spin, ofParts, Vec3.divide, Scalar.double_real, mul_def, Quaternion.mk.injEq]
  refine ⟨?_, ?_, ?_, ?_⟩ <;> ring

theorem HasRate.vector (h : HasRate q q' times t) :
    Vec3.HasRate (fun τ => (q τ).vector) q'.vector times t :=
  ⟨h.x, h.y, h.z⟩

/-- A spin does not change the norm. -/
theorem HasRate.normSq (h : HasRate q (spin ω (q t)) times t) :
    HasDerivWithinAt (fun τ => (q τ).normSq) 0 times t := by
  refine ((((h.x.mul h.x).add (h.y.mul h.y)).add (h.z.mul h.z)).add (h.w.mul h.w)).congr_deriv ?_
  simp only [spin_eq]
  ring

theorem HasRate.norm (h : HasRate q (spin ω (q t)) times t) (hne : q t ≠ ⟨0, 0, 0, 0⟩) :
    HasDerivWithinAt (fun τ => (q τ).norm) 0 times t :=
  (h.normSq.sqrt (normSq_pos hne).ne').congr_deriv (zero_div _)

/-- A quaternion spins like its direction. -/
theorem HasRate.normalize (h : HasRate q (spin ω (q t)) times t) (hne : q t ≠ ⟨0, 0, 0, 0⟩) :
    HasRate (fun τ => (q τ).normalize) (spin ω (q t).normalize) times t := by
  have hnorm := h.norm hne
  have hpos : (q t).norm ≠ 0 := (Real.sqrt_pos.2 (normSq_pos hne)).ne'
  -- The norm has the derivative zero, so only the numerators change.
  have hquot {f : ℝ → ℝ} {f' : ℝ} (hf : HasDerivWithinAt f f' times t) :
      HasDerivWithinAt (fun τ => f τ / (q τ).norm) (f' / (q t).norm) times t := by
    refine (hf.div hnorm hpos).congr_deriv ?_
    field_simp
    ring
  refine ⟨?_, ?_, ?_, ?_⟩
  · refine (hquot h.w).congr_deriv ?_
    simp only [spin_eq, Quaternion.normalize]
    ring
  · refine (hquot h.x).congr_deriv ?_
    simp only [spin_eq, Quaternion.normalize]
    ring
  · refine (hquot h.y).congr_deriv ?_
    simp only [spin_eq, Quaternion.normalize]
    ring
  · refine (hquot h.z).congr_deriv ?_
    simp only [spin_eq, Quaternion.normalize]
    ring

/-- The product rule for turning a vector. Turning by any quaternion is quadratic in it up to a
multiple of `1 - |p|²`, so only for a unit quaternion what is left is `ω × r`. -/
theorem cross_rotate_eq {p : Quaternion ℝ} (hunit : p.normSq = 1) (ω v : Vec3 ℝ) :
    let s := spin ω p
    let twice : ℝ := Scalar.double 1
    s.w • twice • p.vector.cross v + p.w • twice • s.vector.cross v +
      (s.vector.cross (twice • p.vector.cross v) + p.vector.cross (twice • s.vector.cross v)) =
      ω.cross (p.rotate v) := by
  rw [Quaternion.normSq] at hunit
  simp only [spin_eq, Quaternion.rotate, Quaternion.vector, Vec3.cross, Vec3.smul_def,
    Vec3.add_def, Scalar.double_real, Vec3.mk.injEq]
  refine ⟨?_, ?_, ?_⟩
  · linear_combination (ω.y * v.z - ω.z * v.y) * hunit
  · linear_combination (ω.z * v.x - ω.x * v.z) * hunit
  · linear_combination (ω.x * v.y - ω.y * v.x) * hunit

/-- A vector that is fixed to a spinning body changes at the rate `ω × r`. -/
theorem HasRate.rotate (h : HasRate q (spin ω (q t)) times t) (hunit : (q t).normSq = 1)
    (v : Vec3 ℝ) :
    Vec3.HasRate (fun τ => (q τ).rotate v) (ω.cross ((q t).rotate v)) times t := by
  have htwist := (h.vector.cross_const v).const_smul (Scalar.double 1)
  have hturned := ((Vec3.HasRate.smul h.w htwist).add (h.vector.cross htwist)).add_const v
  exact cross_rotate_eq hunit ω v ▸ hturned

end Quaternion

end WholeBody
