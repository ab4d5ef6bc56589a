import Mathlib
import WholeBody.Proofs.Contact.Frame

/-!
# Orthonormal contact frames

The first tangent starts from a world axis that is not close to the normal, so what is left of that
axis beside the normal never vanishes, and the frame is orthonormal and right-handed for every
normal. Only the direction of the normal matters.

## Main statements

* `Vec3.le_offAxis_dot_self` — how much of the axis is left.
* `ContactFrame.isOrthonormal_ofNormal` — the frame of a normal.
* `ContactFrame.IsOrthonormal.dot_components` — components keep products, hence lengths and angles.
* `contactFrame_orthonormal` — all of it for every normal that is not zero.
-/

namespace WholeBody

/-! ### The first tangent -/

namespace Vec3

variable {n : Vec3 ℝ}

/-- The world axis that the first tangent to a direction starts from. -/
noncomputable def seed (n : Vec3 ℝ) : Vec3 ℝ :=
  if |n.x| < Scalar.ofDecimal 9 1 then unitX else unitY

/-- What is left of the seed of a direction beside the direction itself. -/
noncomputable def offAxis (n : Vec3 ℝ) : Vec3 ℝ := n.seed - n.dot n.seed • n

theorem seed_eq (n : Vec3 ℝ) : n.seed = if |n.x| < 9 / 10 then unitX else unitY := by
  have hswitch : (Scalar.ofDecimal 9 1 : ℝ) = 9 / 10 := by norm_num [Scalar.ofDecimal_real]
  rw [seed, hswitch]

theorem tangents_eq (v : Vec3 ℝ) : v.tangents =
    (v.normalize.offAxis.normalize, v.normalize.cross v.normalize.offAxis.normalize) := rfl

/-- At most 0.9 of the seed of a direction lies along the direction: that is where the seed
switches, and beyond it the other axis is almost perpendicular. -/
theorem dot_seed_sq_le (hn : n.dot n = 1) : n.dot n.seed ^ 2 ≤ 81 / 100 := by
  rw [dot_eq] at hn
  rw [seed_eq]
  split
  · rename_i hx
    have hdot : n.dot unitX = n.x := by simp [unitX, dot_eq]
    calc n.dot unitX ^ 2 = |n.x| ^ 2 := by rw [hdot, sq_abs]
      _ ≤ (9 / 10) ^ 2 := by gcongr
      _ = 81 / 100 := by norm_num
  · rename_i hx
    have hdot : n.dot unitY = n.y := by simp [unitY, dot_eq]
    have hsq : (9 / 10) ^ 2 ≤ n.x ^ 2 := by
      rw [← sq_abs n.x]
      exact pow_le_pow_left₀ (by norm_num) (not_lt.1 hx) 2
    rw [hdot]
    linarith [mul_self_nonneg n.z]

theorem seed_dot_self (n : Vec3 ℝ) : n.seed.dot n.seed = 1 := by
  rw [seed]
  split <;> simp [unitX, unitY, dot_eq]

theorem offAxis_dot_self (hn : n.dot n = 1) :
    n.offAxis.dot n.offAxis = 1 - n.dot n.seed ^ 2 := by
  have hbeside : n.offAxis.dot n = 0 := by
    rw [offAxis, sub_dot, smul_dot, hn, dot_comm n, mul_one, sub_self]
  calc n.offAxis.dot n.offAxis = n.seed.dot n.offAxis - n.dot n.seed * n.dot n.offAxis := by
        rw [← smul_dot, ← sub_dot, ← offAxis]
    _ = n.offAxis.dot n.seed := by
        rw [dot_comm n n.offAxis, hbeside, mul_zero, sub_zero, dot_comm]
    _ = 1 - n.dot n.seed ^ 2 := by rw [offAxis, sub_dot, smul_dot, seed_dot_self, sq]

/-- The seed of a direction never vanishes beside it. -/
theorem le_offAxis_dot_self (hn : n.dot n = 1) : 19 / 100 ≤ n.offAxis.dot n.offAxis := by
  rw [offAxis_dot_self hn]
  linarith [dot_seed_sq_le hn]

theorem norm_offAxis_ne_zero (hn : n.dot n = 1) : n.offAxis.norm ≠ 0 := by
  intro hzero
  have hleast := le_offAxis_dot_self hn
  rw [← norm_mul_self, hzero] at hleast
  norm_num at hleast

end Vec3

/-! ### Frames -/

namespace ContactFrame

variable {frame : ContactFrame ℝ} {normal t n : Vec3 ℝ} {c : ℝ}

/-- A right-handed frame of unit vectors that are perpendicular to each other. -/
structure IsOrthonormal (frame : ContactFrame ℝ) : Prop where
  t₁_self : frame.t₁.dot frame.t₁ = 1
  t₂_self : frame.t₂.dot frame.t₂ = 1
  normal_self : frame.normal.dot frame.normal = 1
  t₁_t₂ : frame.t₁.dot frame.t₂ = 0
  t₁_normal : frame.t₁.dot frame.normal = 0
  t₂_normal : frame.t₂.dot frame.normal = 0
  t₁_cross_t₂ : frame.t₁.cross frame.t₂ = frame.normal

/-- Two perpendicular unit vectors are completed by their cross product. -/
theorem isOrthonormal_of_cross (ht : t.dot t = 1) (hn : n.dot n = 1) (htn : t.dot n = 0) :
    IsOrthonormal ⟨t, n.cross t, n⟩ where
  t₁_self := ht
  t₂_self := by rw [Vec3.cross_dot_cross_self, hn, ht, Vec3.dot_comm, htn]; norm_num
  normal_self := hn
  t₁_t₂ := by rw [Vec3.dot_comm, Vec3.cross_dot_right]
  t₁_normal := htn
  t₂_normal := Vec3.cross_dot_self n t
  t₁_cross_t₂ := by
    rw [Vec3.cross_cross, ht, htn, Vec3.one_smul, Vec3.zero_smul, Vec3.sub_zero]

theorem isOrthonormal_ofNormal (h : normal ≠ 0) : (ofNormal normal).IsOrthonormal := by
  have hnorm : normal.norm ≠ 0 := Vec3.norm_eq_zero_iff.not.2 h
  have hn := Vec3.normalize_dot_self hnorm
  have htn := (Vec3.tangents_dot_normalize hnorm).1
  rw [Vec3.tangents_eq] at htn
  rw [ofNormal, Vec3.tangents_eq]
  exact isOrthonormal_of_cross (Vec3.normalize_dot_self (Vec3.norm_offAxis_ne_zero hn)) hn htn

namespace IsOrthonormal

variable (h : frame.IsOrthonormal)

include h

/-- Components keep the products of forces. -/
theorem dot_components (f g : Vec3 ℝ) :
    (frame.components f).dot (frame.components g) = f.dot g := by
  have hnormal := Vec3.cross_dot_mul_cross_dot frame.t₁ frame.t₂ f g
  rw [h.t₁_cross_t₂, h.t₁_self, h.t₂_self, h.t₁_t₂] at hnormal
  rw [Vec3.dot_eq]
  simp only [components, hnormal]
  ring

theorem norm_components (f : Vec3 ℝ) : (frame.components f).norm = f.norm := by
  rw [Vec3.norm, Vec3.norm, h.dot_components]

/-- A force is the sum of its components along the frame. -/
theorem sum_components (f : Vec3 ℝ) :
    let k := frame.components f
    k.x • frame.t₁ + k.y • frame.t₂ + k.z • frame.normal = f := by
  intro k
  refine Vec3.ext_dot fun g => ?_
  rw [Vec3.add_dot, Vec3.add_dot, Vec3.smul_dot, Vec3.smul_dot, Vec3.smul_dot,
    ← h.dot_components f g, Vec3.dot_eq]
  rfl

end IsOrthonormal

theorem ofNormal_smul (hc : 0 < c) (normal : Vec3 ℝ) : ofNormal (c • normal) = ofNormal normal := by
  simp only [ofNormal, Vec3.tangents, Vec3.normalize_smul hc]

end ContactFrame

/-- The frame of every normal that is not zero. What is left of the seed of the first tangent has a
squared length of at least 0.19. The frame is orthonormal and right-handed, and its normal is the
direction of the given one. Components keep products and lengths, and a force is their sum along
the frame. Positive multiples of a normal have one frame. -/
theorem contactFrame_orthonormal {normal : Vec3 ℝ} (h : normal ≠ 0) :
    let n := normal.normalize
    let frame := ContactFrame.ofNormal normal
    (frame.t₁ = n.offAxis.normalize ∧ 19 / 100 ≤ n.offAxis.dot n.offAxis) ∧
      (frame.IsOrthonormal ∧ normal.norm • frame.normal = normal) ∧
      (∀ f g, (frame.components f).dot (frame.components g) = f.dot g) ∧
      (∀ f, (frame.components f).norm = f.norm) ∧
      (∀ f, let k := frame.components f
        k.x • frame.t₁ + k.y • frame.t₂ + k.z • frame.normal = f) ∧
      ∀ c : ℝ, 0 < c → ContactFrame.ofNormal (c • normal) = frame := by
  intro n frame
  have hn : n.dot n = 1 := Vec3.normalize_dot_self (Vec3.norm_eq_zero_iff.not.2 h)
  have hframe : frame.IsOrthonormal := ContactFrame.isOrthonormal_ofNormal h
  have ht₁ : frame.t₁ = n.offAxis.normalize := congrArg Prod.fst (Vec3.tangents_eq normal)
  exact ⟨⟨ht₁, Vec3.le_offAxis_dot_self hn⟩, ⟨hframe, Vec3.norm_smul_normalize h⟩,
    hframe.dot_components, hframe.norm_components, hframe.sum_components,
    fun c hc => ContactFrame.ofNormal_smul hc normal⟩

/-- A normal where the seed has just switched from x to y, and twice that normal. -/
theorem contactFrame_orthonormal_switch :
    let normal : Vec3 ℝ := ⟨9, 3, √10⟩
    let frame := ContactFrame.ofNormal normal
    normal ≠ 0 ∧ normal.normalize.seed = .unitY ∧ frame.IsOrthonormal ∧
      (frame.components ⟨2, 3, 6⟩).norm = 7 ∧
      ContactFrame.ofNormal (⟨18, 6, 2 * √10⟩ : Vec3 ℝ) = frame := by
  intro normal frame
  have hne : normal ≠ 0 := fun hzero => by
    have hx : (9 : ℝ) = 0 := congrArg Vec3.x hzero
    norm_num at hx
  obtain ⟨-, ⟨hframe, -⟩, -, hnorm, -, hscale⟩ := contactFrame_orthonormal hne
  have hlength : normal.norm = 10 := by
    have hdot : normal.dot normal = 10 ^ 2 := by
      norm_num [normal, Vec3.dot_eq]
    rw [Vec3.norm, hdot, Scalar.sqrt_real, Real.sqrt_sq (by norm_num)]
  have hseed : normal.normalize.seed = .unitY := by
    have hx : normal.normalize.x = 9 / 10 := by rw [Vec3.normalize, hlength]; rfl
    rw [Vec3.seed_eq, hx, abs_of_pos (by norm_num), if_neg (lt_irrefl _)]
  have hforce : (⟨2, 3, 6⟩ : Vec3 ℝ).norm = 7 := by
    have hdot : (⟨2, 3, 6⟩ : Vec3 ℝ).dot ⟨2, 3, 6⟩ = 7 ^ 2 := by norm_num [Vec3.dot_eq]
    rw [Vec3.norm, hdot, Scalar.sqrt_real, Real.sqrt_sq (by norm_num)]
  have htwice : (⟨18, 6, 2 * √10⟩ : Vec3 ℝ) = (2 : ℝ) • normal := by
    norm_num [normal, Vec3.smul_def]
  refine ⟨hne, hseed, hframe, (hnorm _).trans hforce, ?_⟩
  rw [htwice]
  exact hscale 2 two_pos

end WholeBody
