import Mathlib
import WholeBody.Proofs.Contact.Frame
import WholeBody.Proofs.Program.Convexity
import WholeBody.Proofs.Program.Cost
import WholeBody.Proofs.Program.Join

/-!
# A point mass on its feet

A point mass can stay at rest whenever its feet carry its weight together. As long as contact forces
cost nothing and no task asks for an acceleration, all ways to share the weight are optimal.

## Main statements

* `PointMass.meets_rise`, `PointMass.meets_stand` — rising and standing meet the constraints.
* `PointMass.isMinimizer_stand` — standing is optimal.
-/

namespace WholeBody

open Finset

/-- A sum over the numbers of a list. -/
theorem sum_map_zipIdx {τ : Type} (es : List τ) (f : ℕ → ℝ) :
    (es.zipIdx.map fun e => f e.2).sum = ∑ i ∈ range es.length, f i := by
  have hnumbers : es.zipIdx.map Prod.snd = List.range es.length := by
    simp [List.range_eq_range']
  calc (es.zipIdx.map fun e => f e.2).sum = ((List.range es.length).map f).sum := by
        rw [← hnumbers, List.map_map]
        rfl
    _ = ∑ i ∈ range es.length, f i := rfl

/-- A task makes no other error than its drift as long as nothing accelerates. -/
theorem TaskTerm.Fits.accelError_eq_drift {t : TaskTerm ℝ} {n : ℕ} (h : t.Fits n) {v : Vec ℝ}
    (hv : ∀ i < t.jacobian.cols, v.entry i = 0) : t.accelError v = t.drift := by
  have hsize : (t.jacobian.mulVec v).size = t.drift.size :=
    (Mat.size_mulVec _ _).trans h.size_drift.symm
  refine Vec.ext_entry ((Vec.size_add _ _).trans hsize) fun i _ => ?_
  have hzero : (t.jacobian.mulVec v).entry i = 0 := by
    rw [Mat.entry_mulVec]
    exact sum_eq_zero fun j hj => by rw [hv j (mem_range.1 hj), mul_zero]
  rw [accelError, Vec.entry_add hsize.ge, hzero, zero_add]

namespace PointMass

variable {r : PointMass ℝ} {state : RobotState ℝ} {contacts : List (ContactPoint ℝ)}
  {s : Settings ℝ} {shares : ℕ → ℝ}

/-- At rest, with a share of the weight on each foot. -/
noncomputable def stand (shares : ℕ → ℝ) : Decision where
  accelerations := .zeros 3
  force i := ⟨0, 0, shares i⟩
  loopForces := .zeros 0
  inputs := .zeros 0
  contactSlack _ := 0
  loopSlack := .zeros 0

/-- On the way up, with a share of the force on each foot. The feet give way as far as they can. -/
noncomputable def rise (accel : ℝ) (shares : ℕ → ℝ) : Decision where
  accelerations := Vec3.toVec ⟨0, 0, accel⟩
  force i := ⟨0, 0, shares i⟩
  loopForces := .zeros 0
  inputs := .zeros 0
  contactSlack _ := ⟨0, 0, accel⟩
  loopSlack := .zeros 0

theorem rise_zero : rise 0 shares = stand shares := by
  have hzero : Vec3.toVec ⟨0, 0, 0⟩ = (.zeros 3 : Vec ℝ) := by
    refine Vec.ext_entry rfl fun i hi => ?_
    rw [Vec3.entry_toVec, Vec.entry_zeros]
    exact Vec3.component_zero i
  rw [rise, stand, hzero]
  rfl

theorem sized_stand : (r.tickData state contacts).Sized (stand shares) :=
  ⟨rfl, rfl, rfl⟩

theorem sized_rise {accel : ℝ} : (r.tickData state contacts).Sized (rise accel shares) :=
  ⟨rfl, rfl, rfl⟩

/-- A force at any point of the mass moves all of it. -/
theorem entry_mulVec_jacobian (force : Vec3 ℝ) {k : ℕ} (hk : k < 3) :
    ((kinematics state).jacobian.toMat.transpose.mulVec force.toVec).entry k =
      force.component k := by
  have hcols : (kinematics state).jacobian.toMat.transpose.cols = 3 := rfl
  rw [Mat.entry_mulVec, hcols]
  match k, hk with
  | 0, _ | 1, _ | 2, _ =>
    simp [kinematics, Jacobian3.ofBlocks, sum_range_succ, Mat3.col, Mat3.identity, Mat3.diagonal,
      Vec3.component]

/-- Every point accelerates as the mass does. -/
theorem mulVec_jacobian (v : Vec ℝ) {k : ℕ} (hk : k < 3) :
    ((kinematics state).jacobian.toMat.mulVec v).entry k = v.entry k := by
  have hcols : (kinematics state).jacobian.toMat.cols = 3 := rfl
  rw [Mat.entry_mulVec, hcols]
  match k, hk with
  | 0, _ | 1, _ | 2, _ =>
    simp [kinematics, Jacobian3.ofBlocks, sum_range_succ, Mat3.col, Mat3.identity, Mat3.diagonal,
      Vec3.component]

/-- The contact forces add up. -/
theorem contactTorque_force (z : Decision) {k : ℕ} (hk : k < 3) :
    (r.tickData state contacts).contactTorque z k =
      (contacts.zipIdx.map fun e => z.force e.2).sum.component k := by
  rw [Vec3.component_sum, List.map_map]
  simp only [TickData.contactTorque, TickData.numbered, tickData, List.zipIdx_map, List.map_map,
    Function.comp_def, Prod.map, entry_mulVec_jacobian _ hk]
  rfl

/-- The feet together push as hard as their shares add up to. -/
theorem contactTorque_rise (accel : ℝ) {k : ℕ} (hk : k < 3) :
    (r.tickData state contacts).contactTorque (rise accel shares) k =
      (⟨0, 0, ∑ i ∈ range contacts.length, shares i⟩ : Vec3 ℝ).component k := by
  rw [contactTorque_force _ hk, Vec3.component_sum, List.map_map]
  refine (sum_map_zipIdx contacts fun i => ((rise accel shares).force i).component k).trans ?_
  interval_cases k
  · exact sum_const_zero
  · exact sum_const_zero
  · rfl

/-- A point mass can rise on feet that give way with it and carry more than its weight by what the
acceleration takes. -/
theorem meets_rise {accel : ℝ} (hground : ∀ c ∈ contacts, c.normal = .unitZ)
    (hcones : ∀ c ∈ contacts, (c.coneOr s.defaultCone).Valid) (hleast : 0 ≤ s.minNormalForce)
    (hshares : ∀ i < contacts.length, s.minNormalForce ≤ shares i)
    (hforce : ∑ i ∈ range contacts.length, shares i = r.mass * accel + r.mass * r.gravity)
    (hslack : s.contactMode.slack accel = accel) :
    (r.tickData state contacts).Meets s (rise accel shares) := by
  have hcontact {e : (ContactPoint ℝ × PointKinematics ℝ) × ℕ}
      (he : e ∈ (r.tickData state contacts).numbered) :
      e.1.1 ∈ contacts ∧ s.minNormalForce ≤ shares e.2 := by
    obtain ⟨c, hc, hkin⟩ := List.mem_map.1 (TickData.mem_contacts_of_mem_numbered he)
    have hlt := TickData.lt_of_mem_numbered he
    rw [tickData, List.length_map] at hlt
    exact ⟨by rwa [← hkin], hshares _ hlt⟩
  have hframe {c : ContactPoint ℝ} (hc : c ∈ contacts) :
      c.frame = ⟨.unitX, .unitY, .unitZ⟩ := by
    rw [ContactPoint.frame, hground c hc]
    exact ContactFrame.ofNormal_vertical one_pos
  refine ⟨fun k hk => ?_, fun e he k hk => ?_, nofun, fun e he => ?_, fun e he => ?_, nofun⟩
  · have hmass : ((r.tickData state contacts).massMatrix.mulVec
        (rise accel shares).accelerations).entry k =
          r.mass * (⟨0, 0, accel⟩ : Vec3 ℝ).component k := by
      rw [← Vec3.entry_toVec]
      exact Mat.mulVec_scalarMatrix r.mass hk
    have hinput : ((r.tickData state contacts).actuation.mulVec
        (rise accel shares).inputs).entry k = 0 := Mat.mulVec_zeros 3 0
    have hloop : (r.tickData state contacts).loopTorque (rise accel shares) k = 0 := rfl
    rw [hmass, hinput, contactTorque_rise accel hk, hforce, hloop, add_zero, zero_add]
    match k, hk with
    | 0, _ | 1, _ => exact (add_zero _).trans (mul_zero _)
    | 2, _ => rfl
  · obtain ⟨c, -, hc⟩ := List.mem_map.1 (TickData.mem_contacts_of_mem_numbered he)
    have hzero : s.contactMode.slack 0 = 0 := by cases s.contactMode <;> rfl
    rw [← hc]
    refine (congrArg₂ _ (mulVec_jacobian _ hk) (Vec3.component_zero k)).trans ?_
    rw [add_zero, rise, Vec3.entry_toVec]
    match k, hk with
    | 0, _ | 1, _ => exact hzero.symm
    | 2, _ => exact hslack.symm
  · rw [hframe (hcontact he).1]
    simpa [rise, Vec3.dot_eq, Vec3.unitZ] using (hcontact he).2
  · obtain ⟨hmem, hshare⟩ := hcontact he
    have hload : e.1.1.frame.load (e.1.1.frictionOr s.defaultFriction)
        ((rise accel shares).force e.2) = ⟨0, 0, shares e.2⟩ := by
      rw [hframe hmem]
      simp [rise, ContactFrame.load, ContactFrame.components, Vec3.dot_eq, Vec3.unitX, Vec3.unitY,
        Vec3.unitZ]
    rw [hload]
    exact (hcones _ hmem).accepts_normal (hleast.trans hshare)

/-- A point mass can stand on feet that carry its weight together. -/
theorem meets_stand (hground : ∀ c ∈ contacts, c.normal = .unitZ)
    (hcones : ∀ c ∈ contacts, (c.coneOr s.defaultCone).Valid) (hleast : 0 ≤ s.minNormalForce)
    (hshares : ∀ i < contacts.length, s.minNormalForce ≤ shares i)
    (hweight : ∑ i ∈ range contacts.length, shares i = r.mass * r.gravity) :
    (r.tickData state contacts).Meets s (stand shares) := by
  rw [← rise_zero]
  refine meets_rise hground hcones hleast hshares ?_ ?_
  · rw [hweight, mul_zero, zero_add]
  · cases s.contactMode <;> rfl

/-- The slack of standing costs nothing. -/
theorem penalty_contactSlack_stand :
    let l := (r.tickData state contacts).layout s
    s.contactMode.penalty (l.contactSlack.normSq (l.join (stand shares))) = 0 := by
  intro l
  rw [TickData.penalty_contactSlack]
  cases hmode : s.contactMode with
  | hard => rfl
  | soft w =>
    rw [ConstraintMode.penalty, sum_eq_zero fun i hi => ?_, mul_zero]
    have hslack : (l.split (l.join (stand shares))).contactSlack i = 0 := by
      refine Vec3.ext_component fun k hk => ?_
      have hcomponent := TickData.slack_split_join_contactSlack (s := s) (z := stand shares)
        (mem_range.1 hi) hk
      rwa [hmode] at hcomponent
    rw [hslack, Vec3.normSq, Vec3.dot_eq, Vec3.zero_def]
    norm_num

section Optimal

variable {a : Assembler ℝ} {terms : List (TaskTerm ℝ)}

/-- Standing costs nothing as long as contact forces are free. -/
theorem cost_stand (hforces : a.settings.contactForceRegularization = 0)
    (hcosts : ∀ c ∈ a.jointCosts, c.1 < 3) (hterms : ∀ t ∈ terms, t.Fits 3)
    (hsymm : ∀ t ∈ terms, t.weight.IsSymmetric) :
    let d := r.tickData state contacts
    (d.program a terms).cost ((d.layout a.settings).join (stand shares)) = 0 := by
  intro d
  have hsized : d.Sized (stand shares) := sized_stand
  let l := d.layout a.settings
  let x := l.join (stand shares)
  have hstill {i : ℕ} (hi : i < 3) : x.entry i = 0 := by
    rw [TickData.entry_join_accelerations hi]
    exact Vec.entry_zeros 3
  have herror (t : TaskTerm ℝ) (ht : t ∈ terms) :
      t.weight.form (t.accelError (x.slice 0 t.jacobian.cols)) = t.weight.form t.drift := by
    rw [(hterms t ht).accelError_eq_drift fun i hi => ?_]
    rw [Vec.entry_slice hi, Nat.zero_add, hstill (hi.trans_le (hterms t ht).2.2.2.2)]
  have haccel : l.accelerations.normSq x = 0 := by
    change (l.split x).accelerations.normSq = 0
    rw [hsized.split_join_accelerations]
    exact Vec.zeros_dot 3 _
  have hinputs : l.inputs.normSq x = 0 := by
    change (l.split x).inputs.normSq = 0
    rw [hsized.split_join_inputs]
    exact Vec.zeros_dot 0 _
  have hjoints : (a.jointCosts.map fun c => c.2 * x.entry c.1 ^ 2).sum = 0 := by
    refine List.sum_eq_zero (List.forall_mem_map.2 fun c hc => ?_)
    rw [hstill (hcosts c hc), sq, mul_zero, mul_zero]
  have hloopSlack : l.loopSlack.normSq x = 0 := by
    have hsize : l.loopSlack.size = a.settings.loopMode.slackRows 0 := d.size_loopSlack a.settings
    rw [Span.normSq, hsize]
    cases a.settings.loopMode <;> rfl
  have hx : x.size = (d.layout a.settings).numVariables := Vec.size_ofFn _ _
  rw [TickData.cost_program (d.costFits a hterms hcosts) hsymm hx, List.map_congr_left herror,
    haccel, hjoints, hinputs, hforces, penalty_contactSlack_stand, hloopSlack,
    ConstraintMode.penalty_zero]
  ring

/-- Nothing costs less when no task asks for an acceleration. -/
theorem isMinimizer_stand (hstate : state.q.size = 3 ∧ state.v.size = 3)
    (hbody : ∀ c ∈ contacts, c.point.body = r.body) (hs : a.settings.Valid)
    (hforces : a.settings.contactForceRegularization = 0)
    (hcosts : ∀ c ∈ a.jointCosts, c.1 < 3 ∧ 0 ≤ c.2) (hterms : ∀ t ∈ terms, t.Fits 3)
    (hweights : ∀ t ∈ terms, t.weight.IsPosSemidef)
    (hdrift : ∀ t ∈ terms, ∀ i, t.drift.entry i = 0)
    (hmeets : (r.tickData state contacts).Meets a.settings (stand shares)) :
    let d := r.tickData state contacts
    (d.program a terms).IsMinimizer ((d.layout a.settings).join (stand shares)) := by
  intro d
  have hn := TickData.numVariables_program (d := d) a terms
  refine ⟨(Vec.size_ofFn _ _).trans hn.symm, ?_, fun y hy _ => ?_⟩
  · have hshaped := (TickData.of_gather_eq_ok (gather_eq_ok hstate hbody)).2
    exact (TickData.feasible_program_iff hshaped a terms).2 (hmeets.split_join sized_stand)
  · have hzero : (d.program a terms).cost ((d.layout a.settings).join (stand shares)) = 0 :=
      cost_stand hforces (fun c hc => (hcosts c hc).1) hterms fun t ht => (hweights t ht).1
    have hdrifts : (terms.map fun t => t.weight.form t.drift).sum = 0 :=
      List.sum_eq_zero (List.forall_mem_map.2 fun t ht => Mat.form_eq_zero (hdrift t ht))
    rw [hzero, ← neg_zero, ← hdrifts]
    exact TickData.neg_drift_le_cost_program hs (fun c hc => (hcosts c hc).2) hweights
      (d.costFits a hterms fun c hc => (hcosts c hc).1) (hy.trans hn)

end Optimal

end PointMass

end WholeBody
