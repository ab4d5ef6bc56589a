import Mathlib
import WholeBody.Proofs.Linear.RotationVector

/-!
# The error of an orientation

The error is the rotation vector, in world frame, of the shortest way from the actual orientation to
the desired one. It is seen from the world: a rotation of the world turns it, and a rotation of the
body frame leaves it alone.

## Main statements

* `orientationError_shortest` — the error leads to the desired orientation, and nothing shorter does.
* `orientationError_worldFrame` — how the error follows rotations of the world and of the body, and
  what the way back and the antipodal quaternions have for an error.
-/

namespace WholeBody

namespace Quaternion

variable {d a g q : Quaternion ℝ} {v : Vec3 ℝ}

/-- The rotation vector of the shortest turn of a unit quaternion. -/
noncomputable def shortestLog (q : Quaternion ℝ) : Vec3 ℝ := if q.w < 0 then (-q).log else q.log

theorem orientationError_eq (d a : Quaternion ℝ) :
    orientationError d a = (d * a.conj).shortestLog := rfl

theorem shortestLog_of_nonneg (hw : 0 ≤ q.w) : q.shortestLog = q.log := if_neg (not_lt.2 hw)

theorem shortestLog_of_neg (hw : q.w < 0) : q.shortestLog = (-q).log := if_pos hw

/-- The shortest turn is the logarithm of the one of the two quaternions of a rotation whose scalar
part is not negative. -/
theorem exists_log_eq_shortestLog (q : Quaternion ℝ) :
    ∃ p, SameRotation p q ∧ 0 ≤ p.w ∧ q.shortestLog = p.log := by
  obtain hw | hw := lt_or_ge q.w 0
  · exact ⟨-q, .inr rfl, neg_nonneg.2 hw.le, shortestLog_of_neg hw⟩
  · exact ⟨q, .inl rfl, hw, shortestLog_of_nonneg hw⟩

/-! ### The shortest way -/

theorem norm_shortestLog_le (h : q.normSq = 1) : q.shortestLog.norm ≤ Real.pi := by
  obtain ⟨p, hp, hw, hlog⟩ := exists_log_eq_shortestLog q
  have hlength := norm_log (hp.normSq_eq.trans h) hw
  have hangle := halfAngle_le hw
  rw [hlog]
  linarith

theorem sameRotation_exp_shortestLog (h : q.normSq = 1) : SameRotation (exp q.shortestLog) q := by
  obtain ⟨p, hp, hw, hlog⟩ := exists_log_eq_shortestLog q
  rw [hlog, exp_log (hp.normSq_eq.trans h) hw]
  exact hp

/-- Among the rotation vectors of one rotation no other is shorter: the half angles have the same
cosine up to its sign, and between no turn and a half turn the cosine falls. -/
theorem norm_shortestLog_le_of_sameRotation (h : q.normSq = 1) (hv : SameRotation (exp v) q) :
    q.shortestLog.norm ≤ v.norm := by
  obtain ⟨p, hp, hw, hlog⟩ := exists_log_eq_shortestLog q
  have hunit : p.normSq = 1 := hp.normSq_eq.trans h
  have hcos : |Real.cos (v.norm / 2)| = Real.cos p.halfAngle := by
    rw [← w_exp, hv.abs_w_eq, ← hp.abs_w_eq, abs_of_nonneg hw, cos_halfAngle hunit]
  rw [hlog, norm_log hunit hw]
  by_contra hlt
  have hshort : v.norm / 2 < p.halfAngle := by linarith
  have hfalls : Real.cos p.halfAngle < Real.cos (v.norm / 2) :=
    Real.cos_lt_cos_of_nonneg_of_le_pi_div_two (div_nonneg v.norm_nonneg two_pos.le)
      (halfAngle_le hw) hshort
  exact (hfalls.trans_le (le_abs_self _)).ne' hcos

/-- A rotation vector of less than a half turn is the shortest one of its rotation. -/
theorem shortestLog_exp (hv : v.norm < Real.pi) : (exp v).shortestLog = v := by
  have hpi := Real.pi_pos
  have hlen := v.norm_nonneg
  have hw : 0 ≤ (exp v).w := by
    rw [w_exp]
    exact Real.cos_nonneg_of_neg_pi_div_two_le_of_le (by linarith) (by linarith)
  rw [shortestLog_of_nonneg hw, log_exp (by linarith)]

/-- A quaternion leads from `a` to `d` when it is one of the two of the relative rotation. -/
theorem sameRotation_mul_iff (ha : a.normSq = 1) :
    SameRotation (q * a) d ↔ SameRotation q (d * a.conj) := by
  constructor
  · rintro (h | h)
    · left
      rw [← h, mul_mul_conj_self ha]
    · right
      rw [← Quaternion.neg_mul, ← h, mul_mul_conj_self ha]
  · rintro (rfl | rfl)
    · left
      rw [mul_conj_mul ha]
    · right
      rw [Quaternion.neg_mul, mul_conj_mul ha]

/-- The error that a rotation vector of less than a half turn makes. -/
theorem orientationError_exp_mul (ha : a.normSq = 1) (hv : v.norm < Real.pi) :
    orientationError (exp v * a) a = v := by
  rw [orientationError_eq, mul_mul_conj_self ha, shortestLog_exp hv]

/-! ### Other frames -/

theorem shortestLog_conj (q : Quaternion ℝ) : q.conj.shortestLog = -q.shortestLog := by
  have hscalar : q.conj.w = q.w := rfl
  obtain hw | hw := lt_or_ge q.w 0
  · rw [shortestLog_of_neg hw, shortestLog_of_neg (hscalar.trans_lt hw), ← conj_neg, log_conj]
  · rw [shortestLog_of_nonneg hw, shortestLog_of_nonneg (hw.trans_eq hscalar.symm), log_conj]

theorem shortestLog_mul_mul_conj (hg : g.normSq = 1) (q : Quaternion ℝ) :
    (g * q * g.conj).shortestLog = g.rotate q.shortestLog := by
  have hscalar : (g * q * g.conj).w = q.w := w_mul_mul_conj hg q
  obtain hw | hw := lt_or_ge q.w 0
  · rw [shortestLog_of_neg hw, shortestLog_of_neg (hscalar.trans_lt hw), ← log_mul_mul_conj hg,
      Quaternion.mul_neg, Quaternion.neg_mul]
  · rw [shortestLog_of_nonneg hw, shortestLog_of_nonneg (hw.trans_eq hscalar.symm),
      log_mul_mul_conj hg]

/-- Apart from half turns, where both ways are equally long, the two quaternions of a rotation have
the same shortest turn. -/
theorem shortestLog_neg (hw : q.w ≠ 0) : (-q).shortestLog = q.shortestLog := by
  have hscalar : (-q).w = -q.w := rfl
  obtain hneg | hpos := hw.lt_or_gt
  · have hw' : 0 ≤ (-q).w := hscalar.symm ▸ neg_nonneg.2 hneg.le
    rw [shortestLog_of_neg hneg, shortestLog_of_nonneg hw']
  · have hw' : (-q).w < 0 := hscalar.symm ▸ neg_lt_zero.2 hpos
    rw [shortestLog_of_nonneg hpos.le, shortestLog_of_neg hw', Quaternion.neg_neg]

end Quaternion

/-- The error of an orientation leads to the desired one along the shortest way: it is at most a half
turn, turning the actual orientation by it gives the desired one, and no shorter rotation vector does
that. Conversely every rotation vector of less than a half turn is the error that it makes. -/
theorem orientationError_shortest :
    (∀ d a : Quaternion ℝ, d.normSq = 1 → a.normSq = 1 →
      let e := orientationError d a
      e.norm ≤ Real.pi ∧
      Quaternion.SameRotation (Quaternion.exp e * a) d ∧
      (∀ u, (Quaternion.exp e).rotate (a.rotate u) = d.rotate u) ∧
      ∀ v, Quaternion.SameRotation (Quaternion.exp v * a) d → e.norm ≤ v.norm) ∧
    ∀ (a : Quaternion ℝ) (d : Vec3 ℝ), a.normSq = 1 → d.norm < Real.pi →
      orientationError (Quaternion.exp d * a) a = d := by
  refine ⟨fun d a hd ha => ?_, fun a v ha hv => ?_⟩
  · have hunit : (d * a.conj).normSq = 1 :=
      Quaternion.normSq_mul_eq_one hd ((Quaternion.normSq_conj a).trans ha)
    have hsame : Quaternion.SameRotation (Quaternion.exp (orientationError d a) * a) d :=
      (Quaternion.sameRotation_mul_iff ha).2 (Quaternion.sameRotation_exp_shortestLog hunit)
    refine ⟨Quaternion.norm_shortestLog_le hunit, hsame, fun u => ?_, fun v hv => ?_⟩
    · have hexp := Quaternion.normSq_exp (orientationError d a)
      rw [← Quaternion.rotate_mul hexp ha]
      exact (Quaternion.sameRotation_iff (Quaternion.normSq_mul_eq_one hexp ha) hd).1 hsame u
    · exact Quaternion.norm_shortestLog_le_of_sameRotation hunit
        ((Quaternion.sameRotation_mul_iff ha).1 hv)
  · exact Quaternion.orientationError_exp_mul ha hv

/-- Half a turn about y, from half a turn about z to half a turn about x, and a turn of three radians
back to half a turn about z. -/
theorem orientationError_shortest_halfTurn :
    let d : Quaternion ℝ := ⟨0, 1, 0, 0⟩
    let a : Quaternion ℝ := ⟨0, 0, 0, 1⟩
    let v : Vec3 ℝ := ⟨0, 3, 0⟩
    (d.normSq = 1 ∧ a.normSq = 1 ∧
      (orientationError d a).norm ≤ Real.pi ∧
      Quaternion.SameRotation (Quaternion.exp (orientationError d a) * a) d ∧
      ∀ u, Quaternion.SameRotation (Quaternion.exp u * a) d →
        (orientationError d a).norm ≤ u.norm) ∧
    v.norm < Real.pi ∧ orientationError (Quaternion.exp v * a) a = v := by
  intro d a v
  have hd : d.normSq = 1 := by simp [d, Quaternion.normSq]
  have ha : a.normSq = 1 := by simp [a, Quaternion.normSq]
  have hv : v.norm < Real.pi := by
    have hnorm : v.norm = 3 := by simp [v, Vec3.norm, Vec3.dot_eq]
    rw [hnorm]
    exact Real.pi_gt_three
  obtain ⟨hlength, hsame, -, hleast⟩ := orientationError_shortest.1 d a hd ha
  exact ⟨⟨hd, ha, hlength, hsame, hleast⟩, hv, orientationError_shortest.2 a v ha hv⟩

/-- The error is seen from the world. When the world is turned, the error turns with it, and a turn of
the body frame does not change it. The error of the way back is the negative, and apart from half
turns a quaternion and its negative have the same errors. -/
theorem orientationError_worldFrame {g : Quaternion ℝ} (hg : g.normSq = 1) (d a : Quaternion ℝ) :
    orientationError (g * d) (g * a) = g.rotate (orientationError d a) ∧
    orientationError (d * g) (a * g) = orientationError d a ∧
    orientationError a d = -orientationError d a ∧
    ((d * a.conj).w ≠ 0 →
      orientationError (-d) a = orientationError d a ∧
      orientationError d (-a) = orientationError d a) := by
  have hworld : g * d * (g * a).conj = g * (d * a.conj) * g.conj := by
    simp only [Quaternion.conj_mul, Quaternion.mul_assoc]
  have hbody : d * g * (a * g).conj = d * a.conj := by
    rw [Quaternion.conj_mul, ← Quaternion.mul_assoc, Quaternion.mul_mul_conj_self hg]
  have hback : a * d.conj = (d * a.conj).conj := by
    rw [Quaternion.conj_mul, Quaternion.conj_conj]
  simp only [Quaternion.orientationError_eq]
  refine ⟨?_, ?_, ?_, fun hw => ⟨?_, ?_⟩⟩
  · rw [hworld, Quaternion.shortestLog_mul_mul_conj hg]
  · rw [hbody]
  · rw [hback, Quaternion.shortestLog_conj]
  · rw [Quaternion.neg_mul, Quaternion.shortestLog_neg hw]
  · rw [Quaternion.conj_neg, Quaternion.mul_neg, Quaternion.shortestLog_neg hw]

/-- Two orientations with opposite signs, in a world that is turned about x. -/
theorem orientationError_worldFrame_opposite :
    let g : Quaternion ℝ := ⟨3 / 5, 4 / 5, 0, 0⟩
    let d : Quaternion ℝ := ⟨-4 / 5, 0, 0, 3 / 5⟩
    let a : Quaternion ℝ := ⟨3 / 5, 0, 4 / 5, 0⟩
    g.normSq = 1 ∧ (d * a.conj).w ≠ 0 ∧
    orientationError (g * d) (g * a) = g.rotate (orientationError d a) ∧
    orientationError (d * g) (a * g) = orientationError d a ∧
    orientationError a d = -orientationError d a ∧
    orientationError (-d) a = orientationError d a ∧
    orientationError d (-a) = orientationError d a := by
  intro g d a
  have hg : g.normSq = 1 := by norm_num [g, Quaternion.normSq]
  have hw : (d * a.conj).w ≠ 0 := by norm_num [d, a, Quaternion.mul_def, Quaternion.conj]
  obtain ⟨hworld, hbody, hback, hsign⟩ := orientationError_worldFrame hg d a
  exact ⟨hg, hw, hworld, hbody, hback, hsign hw⟩

end WholeBody
