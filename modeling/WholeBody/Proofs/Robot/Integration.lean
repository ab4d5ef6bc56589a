import Mathlib
import WholeBody.Proofs.Tracking.OrientationError
import WholeBody.Robot.FloatingBody

/-!
# Integrating a floating body

A step of the integration moves a floating body with its new velocity. It multiplies the orientation
by the exponential of `dt • ω` from the left, and the error of an orientation is a logarithm of
`desired * actual⁻¹`: both see the rotation from the world, so the error reads `dt • ω` back.

## Main definitions

* `FloatingBody.integrateAll` — several steps, one after the other.
* `FloatingBody.Fits` — the states that can be integrated.
* `FloatingBody.Advances` — what one step does.

## Main statements

* `FloatingBody.Fits.exists_integrate`, `FloatingBody.Advances.fits` — a step can be taken, and
  another one after it.
* `FloatingBody.Fits.exists_integrateAll` — so a run of any length can be taken.
* `integration_matches_orientationError` — every step of every run.
-/

namespace WholeBody

namespace FloatingBody

/-- Integrates several steps, each with an acceleration and the time that it lasts. -/
def integrateAll {α : Type} [Scalar α] (r : FloatingBody α) (s : RobotState α)
    (steps : List (Vec α × α)) : Option (RobotState α) :=
  steps.foldlM (fun s step => r.integrate s step.1 step.2) s

/-- A state that can be integrated: its sizes suffice, and its quaternion has a direction. -/
structure Fits (r : FloatingBody ℝ) (s : RobotState ℝ) : Prop where
  positions : r.numPositions ≤ s.q.size
  velocities : r.numVelocities ≤ s.v.size
  quaternion_ne : Quaternion.ofVec s.q 3 ≠ ⟨0, 0, 0, 0⟩

/-- One step from `s` to `next`: the velocity follows the acceleration, and the positions follow the
new velocity. -/
structure Advances (r : FloatingBody ℝ) (s : RobotState ℝ) (vdot : Vec ℝ) (dt : ℝ)
    (next : RobotState ℝ) : Prop where
  velocity : next.v = s.v + dt • vdot
  size : next.q.size = s.q.size
  position : position next = position s + dt • Vec3.ofVec next.v 0
  quaternion : Quaternion.ofVec next.q 3 =
    Quaternion.exp (dt • angularVelocity next) * orientation s
  joint : ∀ k < r.joints.length,
    next.q.entry (7 + k) = s.q.entry (7 + k) + dt * next.v.entry (6 + k)
  rest : ∀ i, r.numPositions ≤ i → next.q.entry i = s.q.entry i

variable {r : FloatingBody ℝ} {s next : RobotState ℝ} {vdot : Vec ℝ} {dt : ℝ}

/-! ### One step -/

/-- What a step does that has been taken. -/
theorem advances_of_integrate_eq_some (h : r.integrate s vdot dt = some next) :
    r.Advances s vdot dt next := by
  simp only [integrate] at h
  split at h
  case isFalse => cases h
  case isTrue hsizes =>
    obtain ⟨-, -, hq⟩ := hsizes
    have hnp : r.numPositions = 7 + r.joints.length := rfl
    set v := s.v + dt • vdot
    set p := position s + dt • Vec3.ofVec v 0
    set turned := Quaternion.exp (dt • angularVelocity ⟨s.q, v⟩) * orientation s
    have hnext := Option.some.inj h
    have hbase (i : ℕ) (hi : i < 7) : next.q.entry i = (p.toVec ++ turned.toVec).entry i := by
      rw [← hnext, Vec.entry_ofFn_of_lt (by omega), if_pos hi]
    have hjoint (k : ℕ) (hk : k < r.joints.length) :
        next.q.entry (7 + k) = s.q.entry (7 + k) + dt * v.entry (6 + k) := by
      rw [← hnext, Vec.entry_ofFn_of_lt (by omega), if_neg (by omega), if_pos (by omega), mul_comm dt]
      congr 3
      omega
    have hv : next.v = v := by rw [← hnext]
    refine ⟨hv, ?_, ?_, ?_, ?_, fun i hi => ?_⟩
    · rw [← hnext, Vec.size_ofFn]
    · rw [hv]
      exact Vec3.ext (hbase 0 (by decide)) (hbase 1 (by decide)) (hbase 2 (by decide))
    · rw [angularVelocity, hv]
      exact Quaternion.ext (hbase 3 (by decide)) (hbase 4 (by decide)) (hbase 5 (by decide))
        (hbase 6 (by decide))
    · rwa [hv]
    · obtain hin | hout := lt_or_ge i s.q.size
      · rw [← hnext, Vec.entry_ofFn_of_lt hin, if_neg (by omega), if_neg (by omega)]
      · rw [Vec.entry_of_size_le hout, ← hnext, Vec.entry_of_size_le (by simpa using hout)]

namespace Fits

theorem normSq_orientation (h : r.Fits s) : (orientation s).normSq = 1 :=
  Quaternion.normSq_normalize h.quaternion_ne

/-- A step can be taken from every state that fits, with any acceleration of its size. -/
theorem exists_integrate (h : r.Fits s) (hvdot : vdot.size = s.v.size) (dt : ℝ) :
    ∃ next, r.integrate s vdot dt = some next ∧ r.Advances s vdot dt next := by
  have hsome : ∃ next, r.integrate s vdot dt = some next :=
    ⟨_, if_pos ⟨hvdot.symm, h.velocities, h.positions⟩⟩
  obtain ⟨next, hnext⟩ := hsome
  exact ⟨next, hnext, advances_of_integrate_eq_some hnext⟩

end Fits

namespace Advances

variable (h : r.Advances s vdot dt next) (hs : r.Fits s)

include h

theorem size_v : next.v.size = s.v.size := by
  rw [h.velocity, Vec.size_add]

/-- Among Hamilton's quaternions, the orientation is multiplied by an exponential from the left. -/
theorem toHamilton_quaternion : (Quaternion.ofVec next.q 3).toHamilton =
    NormedSpace.exp (Quaternion.ofParts 0 ((1 / 2 : ℝ) • dt • angularVelocity next)).toHamilton *
      (orientation s).toHamilton := by
  rw [h.quaternion, Quaternion.toHamilton_mul, Quaternion.toHamilton_exp]

include hs

/-- The quaternion of a step is one of norm 1, whatever the norm before the step. -/
theorem normSq_quaternion : (Quaternion.ofVec next.q 3).normSq = 1 := by
  rw [h.quaternion]
  exact Quaternion.normSq_mul_eq_one (Quaternion.normSq_exp _) hs.normSq_orientation

/-- Another step can be taken after a step. -/
theorem fits : r.Fits next where
  positions := h.size.symm ▸ hs.positions
  velocities := h.size_v.symm ▸ hs.velocities
  quaternion_ne := Quaternion.ne_zero_of_normSq_eq_one (h.normSq_quaternion hs)

/-- The error of an orientation reads the turn of a step back. -/
theorem orientationError_eq (hturn : (dt • angularVelocity next).norm < Real.pi) :
    orientationError (orientation next) (orientation s) = dt • angularVelocity next := by
  have horientation : orientation next =
      Quaternion.exp (dt • angularVelocity next) * orientation s := by
    rw [← h.quaternion]
    exact Quaternion.normalize_of_normSq_eq_one (h.normSq_quaternion hs)
  rw [horientation]
  exact Quaternion.orientationError_exp_mul hs.normSq_orientation hturn

end Advances

/-! ### Runs -/

/-- A run of any length can be taken from a state that fits, and leads to one. -/
theorem Fits.exists_integrateAll {steps : List (Vec ℝ × ℝ)} (h : r.Fits s)
    (hsteps : ∀ step ∈ steps, step.1.size = s.v.size) :
    ∃ last, r.integrateAll s steps = some last ∧ r.Fits last ∧ last.v.size = s.v.size := by
  induction steps generalizing s with
  | nil => exact ⟨s, rfl, h, rfl⟩
  | cons step steps ih =>
    obtain ⟨hstep, hsteps⟩ := List.forall_mem_cons.1 hsteps
    obtain ⟨next, hnext, hadvances⟩ := h.exists_integrate hstep step.2
    have hsize : next.v.size = s.v.size := hadvances.size_v
    obtain ⟨last, hlast, hfits, hv⟩ := ih (hadvances.fits h) fun e he => (hsteps e he).trans hsize.symm
    refine ⟨last, ?_, hfits, hv.trans hsize⟩
    rw [integrateAll, List.foldlM_cons, hnext]
    exact hlast

end FloatingBody

/-- Every step of every run of a floating body, from a state with any quaternion but zero: the step can
be taken, and so could the run before it. It leaves a quaternion of norm 1, the orientation before the
step times the exponential of half of `dt • ω`. The base and the joints have moved by `dt` times the
new velocity, and when the body has turned by less than a half turn, the error between its
orientations before and after the step is `dt • ω` with the new angular velocity. -/
theorem integration_matches_orientationError {r : FloatingBody ℝ} {s : RobotState ℝ} (h : r.Fits s)
    {steps : List (Vec ℝ × ℝ)} (hsteps : ∀ step ∈ steps, step.1.size = s.v.size) {vdot : Vec ℝ}
    (hvdot : vdot.size = s.v.size) (dt : ℝ) :
    ∃ last next, r.integrateAll s steps = some last ∧ r.integrate last vdot dt = some next ∧
      let v := last.v + dt • vdot
      next.v = v ∧
      (Quaternion.ofVec next.q 3).norm = 1 ∧
      (Quaternion.ofVec next.q 3).toHamilton =
        NormedSpace.exp (Quaternion.ofParts 0 ((1 / 2 : ℝ) • dt • Vec3.ofVec v 3)).toHamilton *
          (FloatingBody.orientation last).toHamilton ∧
      FloatingBody.position next = FloatingBody.position last + dt • Vec3.ofVec v 0 ∧
      (∀ k < r.joints.length,
        next.q.entry (7 + k) = last.q.entry (7 + k) + dt * v.entry (6 + k)) ∧
      ((dt • Vec3.ofVec v 3).norm < Real.pi →
        orientationError (FloatingBody.orientation next) (FloatingBody.orientation last) =
          dt • Vec3.ofVec v 3) := by
  obtain ⟨last, hlast, hfits, hsize⟩ := h.exists_integrateAll hsteps
  obtain ⟨next, hnext, hadvances⟩ := hfits.exists_integrate (hvdot.trans hsize.symm) dt
  refine ⟨last, next, hlast, hnext, hadvances.velocity,
    Quaternion.norm_eq_one (hadvances.normSq_quaternion hfits), ?_⟩
  rw [← hadvances.velocity]
  exact ⟨hadvances.toHamilton_quaternion, hadvances.position, hadvances.joint,
    hadvances.orientationError_eq hfits⟩

/-- Two steps of a body with a wheel, from a quaternion of norm 2. Its rotation about z speeds up, and
each step turns it by the angular velocity that it ends with. -/
theorem integration_matches_orientationError_spinning :
    let r : FloatingBody ℝ := ⟨"base", 1, .identity, 10, false, [⟨"wheel", 3⟩], none, none⟩
    let s : RobotState ℝ := ⟨.ofList [1, 2, 3, 2, 0, 0, 0, 5], .zeros 7⟩
    let vdot : Vec ℝ := .ofList [1, 0, 0, 0, 0, 1, 2]
    r.Fits s ∧ vdot.size = s.v.size ∧
    ∃ middle next, r.integrate s vdot 1 = some middle ∧ r.integrate middle vdot 1 = some next ∧
      (Quaternion.ofVec middle.q 3).norm = 1 ∧ (Quaternion.ofVec next.q 3).norm = 1 ∧
      orientationError (FloatingBody.orientation middle) (FloatingBody.orientation s) = ⟨0, 0, 1⟩ ∧
      orientationError (FloatingBody.orientation next) (FloatingBody.orientation middle) =
        ⟨0, 0, 2⟩ := by
  intro r s vdot
  have hfits : r.Fits s := by
    refine ⟨Nat.le_refl 8, ?_, fun hzero => ?_⟩
    · exact (Vec.size_zeros 7).ge
    · exact two_ne_zero (congrArg Quaternion.w hzero)
  have hsize : vdot.size = s.v.size := (Vec.size_zeros 7).symm
  have hsizes : ∀ step ∈ [(vdot, (1 : ℝ))], step.1.size = s.v.size := by simpa using hsize
  obtain ⟨start, middle, hstart, hmiddle, hv, hunit, -, -, -, hfirst⟩ :=
    integration_matches_orientationError hfits (List.forall_mem_nil _) hsize 1
  obtain ⟨last, next, hlast, hnext, -, hunit', -, -, -, hsecond⟩ :=
    integration_matches_orientationError hfits hsizes hsize 1
  have hstart' : start = s := (Option.some.inj hstart).symm
  have hlast' : last = middle := by
    rw [FloatingBody.integrateAll, List.foldlM_cons, ← hstart', hmiddle] at hlast
    exact (Option.some.inj hlast).symm
  rw [hstart'] at hmiddle hv hfirst
  rw [hlast'] at hnext hsecond
  have hspin : Vec3.ofVec vdot 3 = ⟨0, 0, 1⟩ := rfl
  have hstill : Vec3.ofVec s.v 3 = 0 := by simp [s, Vec3.ofVec, Vec3.zero_def]
  have hv₃ : Vec3.ofVec middle.v 3 = ⟨0, 0, 1⟩ := by
    rw [hv, Vec3.ofVec_add_smul hsize.le, hstill, hspin, Vec3.zero_add, Vec3.one_smul]
  have hmiddleSize : vdot.size ≤ middle.v.size := by rw [hv, Vec.size_add, hsize]
  have hturn : (1 : ℝ) • Vec3.ofVec (s.v + (1 : ℝ) • vdot) 3 = ⟨0, 0, 1⟩ := by
    rw [← hv, hv₃, Vec3.one_smul]
  have hturn' : (1 : ℝ) • Vec3.ofVec (middle.v + (1 : ℝ) • vdot) 3 = ⟨0, 0, 2⟩ := by
    rw [Vec3.one_smul, Vec3.ofVec_add_smul hmiddleSize, hv₃, hspin, Vec3.one_smul]
    norm_num [Vec3.add_def]
  have hpi := Real.pi_gt_three
  rw [hturn, Vec3.norm_vertical zero_le_one] at hfirst
  rw [hturn', Vec3.norm_vertical zero_le_two] at hsecond
  exact ⟨hfits, hsize, middle, next, hmiddle, hnext, hunit, hunit', hfirst (by linarith),
    hsecond (by linarith)⟩

end WholeBody
