import Mathlib
import WholeBody.Proofs.Program.Convexity
import WholeBody.Proofs.Program.Join
import WholeBody.Proofs.Robot.Inverse
import WholeBody.Proofs.Robot.Serving
import WholeBody.Proofs.Tracking.Joints
import WholeBody.Proofs.Tracking.Weights

/-!
# Rotors without contacts

A floating body without base actuators that touches nothing falls freely, and each of its rotors
moves by itself: the cost is a parabola in the acceleration of each rotor, and the effort limit
bounds each input by itself. So the least cost is found rotor by rotor, at the vertex of the
parabola or at the bound that is closer to it.

## Main statements

* `limited_slope` — the slope of a parabola at its least point within bounds.
* `FloatingBody.meets_tickData_iff` — the constraints of a tick without contacts.
* `FloatingBody.cost_eq_parabolas` — the cost of a tick without contacts.
* `rotors_follow_feedback` — the only minimizer of the program of such a tick.
-/

namespace WholeBody

open Finset

/-! ### Parabolas within bounds -/

section Parabola

variable {limit : Option ℝ} {inertia curvature pull accel rest : ℝ}

/-- An input cut off at the effort limit, if there is one. -/
noncomputable def limited (limit : Option ℝ) (input : ℝ) : ℝ :=
  limit.elim input fun bound => max (-bound) (min bound input)

theorem abs_limited_le (hlimit : ∀ bound ∈ limit, 0 ≤ bound) (input : ℝ) :
    ∀ bound ∈ limit, |limited limit input| ≤ bound := by
  rintro bound hbound
  have hnonneg := hlimit bound hbound
  obtain rfl := Option.mem_def.1 hbound
  exact abs_le.2 ⟨le_max_left _ _, max_le (by linarith) (min_le_left _ _)⟩

/-- From the point that is cut off, the parabola with the given curvature and pull does not fall
towards any other point within the limit. -/
theorem limited_slope (hinertia : 0 < inertia) (hcurvature : 0 < curvature)
    (haccel : ∀ bound ∈ limit, |inertia * accel| ≤ bound)
    (hrest : inertia * rest = limited limit (inertia * (pull / curvature))) :
    0 ≤ (curvature * rest - pull) * (accel - rest) := by
  have hvertex : curvature * (pull / curvature) = pull := mul_div_cancel₀ _ hcurvature.ne'
  cases limit with
  | none =>
    have hfree : rest = pull / curvature := mul_left_cancel₀ hinertia.ne' hrest
    rw [hfree, hvertex, sub_self, zero_mul]
  | some bound =>
    obtain ⟨hlow, hhigh⟩ := abs_le.1 (haccel bound rfl)
    have hrest : inertia * rest = max (-bound) (min bound (inertia * (pull / curvature))) := hrest
    have hscale {x y : ℝ} (h : inertia * x ≤ inertia * y) : x ≤ y :=
      le_of_mul_le_mul_left h hinertia
    have hvertex_le (h : rest ≤ pull / curvature) : curvature * rest - pull ≤ 0 := by
      have hmul := mul_le_mul_of_nonneg_left h hcurvature.le
      linarith
    have hle_vertex (h : pull / curvature ≤ rest) : 0 ≤ curvature * rest - pull := by
      have hmul := mul_le_mul_of_nonneg_left h hcurvature.le
      linarith
    rcases le_total bound (inertia * (pull / curvature)) with habove | hbelow
    · -- The vertex is out of reach above, and no other point is as high as the bound.
      rw [min_eq_left habove, max_eq_right (hlow.trans hhigh)] at hrest
      exact mul_nonneg_of_nonpos_of_nonpos (hvertex_le (hscale (hrest.trans_le habove)))
        (sub_nonpos.2 (hscale (hhigh.trans_eq hrest.symm)))
    · rw [min_eq_right hbelow] at hrest
      rcases le_total (-bound) (inertia * (pull / curvature)) with hinside | hunder
      · rw [max_eq_right hinside] at hrest
        rw [mul_left_cancel₀ hinertia.ne' hrest, hvertex, sub_self, zero_mul]
      · rw [max_eq_left hunder] at hrest
        exact mul_nonneg (hle_vertex (hscale (hunder.trans_eq hrest.symm)))
          (sub_nonneg.2 (hscale (hrest.trans_le hlow)))

/-- A parabola above the point from which it does not fall. -/
theorem parabola_le (h : 0 ≤ (curvature * rest - pull) * (accel - rest)) :
    curvature * rest ^ 2 - 2 * pull * rest + curvature * (accel - rest) ^ 2 ≤
      curvature * accel ^ 2 - 2 * pull * accel := by
  have hgap : curvature * accel ^ 2 - 2 * pull * accel
      - (curvature * rest ^ 2 - 2 * pull * rest + curvature * (accel - rest) ^ 2) =
      2 * ((curvature * rest - pull) * (accel - rest)) := by ring
  linarith

end Parabola

/-- A point that costs less than any other by a gap that is zero only there is the one minimizer. -/
theorem ConeProgram.isMinimizer_iff_eq {p : ConeProgram ℝ} {x : Vec ℝ} {gap : Vec ℝ → ℝ}
    (hsize : x.size = p.numVariables) (hfeasible : p.Feasible x) (hnonneg : ∀ y, 0 ≤ gap y)
    (hgap : ∀ y : Vec ℝ, y.size = p.numVariables → p.Feasible y → p.cost x + gap y ≤ p.cost y)
    (hzero : ∀ y : Vec ℝ, y.size = p.numVariables → p.Feasible y → gap y ≤ 0 → y = x)
    (y : Vec ℝ) : p.IsMinimizer y ↔ y = x := by
  constructor
  · intro hy
    refine hzero y hy.size hy.feasible ?_
    have hle := (hgap y hy.size hy.feasible).trans (hy.least x hsize hfeasible)
    linarith
  · rintro rfl
    refine ⟨hsize, hfeasible, fun z hz hfeasible => ?_⟩
    exact (le_add_of_nonneg_right (hnonneg z)).trans (hgap z hz hfeasible)

/-! ### Demands -/

/-- What an objective asks of a rotor. -/
structure Demand where
  weight : ℝ
  command : ℝ

/-- What an active objective asks of the rotor with index `k` if it is bound to it. -/
noncomputable def TrackingObjective.demand (o : TrackingObjective ℝ) (r : FloatingBody ℝ)
    (state : RobotState ℝ) (phase : PhaseId) (timeInPhase : ℝ)
    (sample : Option (TrajectorySample ℝ)) (k : ℕ) : Option Demand :=
  match o.activeTarget phase timeInPhase, o.desired sample with
  | some (.joint name), .ok s =>
    if r.joints.findIdx? (·.name = name) = some k then
      some ⟨(o.effectiveWeight phase).entry 0 0, o.jointCommand state s ⟨7 + k, 6 + k⟩⟩
    else none
  | _, _ => none

/-- The weights of all demands, times what they command. -/
noncomputable def pull (ds : List Demand) : ℝ := (ds.map fun d => d.weight * d.command).sum

/-- The demands of one rotor add up to a parabola. -/
theorem sum_demands (y : ℝ) (ds : List Demand) :
    (ds.map fun d => d.weight * y ^ 2 - 2 * (d.weight * d.command) * y).sum =
      (ds.map (·.weight)).sum * y ^ 2 - 2 * pull ds * y := by
  induction ds with
  | nil => simp [pull]
  | cons d rest ih =>
    simp only [pull, List.map_cons, List.sum_cons] at ih ⊢
    rw [ih]
    ring

namespace FloatingBody

/-- The extra cost of the acceleration of a rotor. -/
noncomputable def extraCost (r : FloatingBody ℝ) (s : Settings ℝ) (k : ℕ) : ℝ :=
  (s.jointAccelerationCosts.entries.map fun e =>
    if r.joints.findIdx? (·.name = e.1) = some k then e.2 else 0).sum

/-- Half the second derivative of the cost in the acceleration of a rotor whose input drives nothing
else. -/
noncomputable def curvature (r : FloatingBody ℝ) (s : Settings ℝ) (ds : List Demand) (k : ℕ) : ℝ :=
  (ds.map (·.weight)).sum + s.accelerationRegularization + r.extraCost s k
    + s.inputRegularization * r.rotorInertia k ^ 2

/-- The acceleration of a rotor that follows its demands as far as the effort limit allows. -/
noncomputable def follow (r : FloatingBody ℝ) (s : Settings ℝ) (ds : List Demand) (k : ℕ) : ℝ :=
  limited r.effortLimit (r.rotorInertia k * (pull ds / r.curvature s ds k)) / r.rotorInertia k

end FloatingBody

/-! ### Sums over rotors -/

/-- A sum over all places that may have been found. -/
theorem sum_found {n : ℕ} {found : Option ℕ} (hfound : ∀ k ∈ found, k < n) (f : ℕ → ℝ) :
    (∑ k ∈ range n, if found = some k then f k else 0) = found.elim 0 f := by
  cases found with
  | none => exact sum_eq_zero fun k _ => if_neg (Option.some_ne_none k).symm
  | some j =>
    simp only [Option.some.injEq, Option.elim_some]
    rw [sum_ite_eq, if_pos (mem_range.2 (hfound j rfl))]

theorem sum_map_filterMap {τ υ : Type} (f : τ → Option υ) (g : υ → ℝ) (ts : List τ) :
    ((ts.filterMap f).map g).sum = (ts.map fun t => (f t).elim 0 g).sum := by
  induction ts with
  | nil => rfl
  | cons t rest ih =>
    rw [List.filterMap_cons, List.map_cons, List.sum_cons, ← ih]
    cases f t with
    | none => exact (zero_add _).symm
    | some u => rfl

theorem sum_map_sum {τ : Type} (f : τ → ℕ → ℝ) (n : ℕ) (ts : List τ) :
    (ts.map fun t => ∑ k ∈ range n, f t k).sum = ∑ k ∈ range n, (ts.map (f · k)).sum := by
  induction ts with
  | nil => exact sum_const_zero.symm
  | cons t rest ih => simp only [List.map_cons, List.sum_cons, ih, sum_add_distrib]

theorem sum_map_sub {τ : Type} (f g : τ → ℝ) (ts : List τ) :
    (ts.map fun t => f t - g t).sum = (ts.map f).sum - (ts.map g).sum := by
  induction ts with
  | nil => exact (sub_zero 0).symm
  | cons t rest ih =>
    simp only [List.map_cons, List.sum_cons, ih]
    ring

namespace FloatingBody

variable {r : FloatingBody ℝ} {state : RobotState ℝ} {phase : PhaseId} {timeInPhase : ℝ} {x : Vec ℝ}

theorem lt_of_findIdx?_eq_some {name : String} :
    ∀ k ∈ r.joints.findIdx? (·.name = name), k < r.joints.length := fun _ hk =>
  (List.findIdx?_eq_some_iff_findIdx_eq.1 hk).1

/-- The share of one objective in the cost. -/
theorem sum_share_eq {o : TrackingObjective ℝ} (ho : o.WellShaped)
    (hjoint : ∀ t ∈ o.activeTarget phase timeInPhase, ∃ name, t = .joint name)
    {sample : Option (TrajectorySample ℝ)} {result : Option (TaskTerm ℝ)}
    (h : o.evaluate r.model state phase timeInPhase sample = .ok result) :
    (result.toList.map fun t =>
        t.weight.form (t.accelError (x.slice 0 t.jacobian.cols)) - t.weight.form t.drift).sum =
      ∑ k ∈ range r.joints.length, (o.demand r state phase timeInPhase sample k).elim 0 fun d =>
        d.weight * x.entry (6 + k) ^ 2 - 2 * (d.weight * d.command) * x.entry (6 + k) := by
  cases htarget : o.activeTarget phase timeInPhase with
  | none =>
    obtain ⟨-, rfl⟩ | ⟨_, _, _, hsome, -⟩ := TrackingObjective.of_evaluate_eq_ok h
    · refine (sum_eq_zero fun k _ => ?_).symm
      rw [TrackingObjective.demand, htarget]
      rfl
    · rw [htarget] at hsome
      cases hsome
  | some target =>
    obtain ⟨name, rfl⟩ := hjoint target htarget
    obtain ⟨s, index, t, hs, hindex, hvelocity, rfl, ht⟩ :=
      TrackingObjective.of_evaluate_joint_eq_ok ho htarget h
    obtain ⟨j, hj, rfl⟩ := Option.map_eq_some_iff.1 hindex
    have hshare := ht.share (v := x.slice 0 t.jacobian.cols) hvelocity
    have hcols : t.jacobian.cols = r.numVelocities := by rw [ht.jacobian]; rfl
    rw [Vec.entry_slice (hvelocity.trans_eq hcols.symm), Nat.zero_add] at hshare
    let w := (o.effectiveWeight phase).entry 0 0
    let share (k : ℕ) : ℝ := w * x.entry (6 + k) ^ 2
      - 2 * (w * o.jointCommand state s ⟨7 + k, 6 + k⟩) * x.entry (6 + k)
    have hdemand (k : ℕ) : (o.demand r state phase timeInPhase sample k).elim 0 (fun d =>
        d.weight * x.entry (6 + k) ^ 2 - 2 * (d.weight * d.command) * x.entry (6 + k)) =
          if r.joints.findIdx? (·.name = name) = some k then share k else 0 := by
      rw [TrackingObjective.demand, htarget, hs]
      dsimp only
      split <;> rfl
    rw [sum_congr rfl fun k _ => hdemand k, sum_found lt_of_findIdx?_eq_some, hj, Option.elim_some]
    exact List.sum_singleton.trans hshare

/-- The shares of all objectives in the cost. -/
theorem sum_shares_eq {objectives : List (TrackingObjective ℝ)}
    (hobjectives : ∀ o ∈ objectives, o.WellShaped ∧
      ∀ t ∈ o.activeTarget phase timeInPhase, ∃ name, t = .joint name)
    {samples : String → Option (TrajectorySample ℝ)} {results : List (Option (TaskTerm ℝ))}
    (hresults : List.Forall₂ (fun o result => o.evaluate r.model state phase timeInPhase
      (samples o.name) = .ok result) objectives results) :
    ((results.flatMap Option.toList).map fun t =>
        t.weight.form (t.accelError (x.slice 0 t.jacobian.cols)) - t.weight.form t.drift).sum =
      ∑ k ∈ range r.joints.length, ((objectives.filterMap fun o =>
        o.demand r state phase timeInPhase (samples o.name) k).map fun d =>
          d.weight * x.entry (6 + k) ^ 2 - 2 * (d.weight * d.command) * x.entry (6 + k)).sum := by
  simp only [sum_map_filterMap]
  rw [← sum_map_sum]
  induction hresults with
  | nil => rfl
  | cons h _ ih =>
    obtain ⟨⟨ho, hjoint⟩, hrest⟩ := List.forall_mem_cons.1 hobjectives
    rw [List.flatMap_cons, List.map_append, List.sum_append, sum_share_eq ho hjoint h, ih hrest,
      List.map_cons, List.sum_cons]

/-- The extra costs of the rotors. -/
theorem sum_extraCosts_eq {s : Settings ℝ} {a : Assembler ℝ}
    (hcreate : Assembler.create s r.model = .ok a) :
    (a.jointCosts.map fun c => c.2 * x.entry c.1 ^ 2).sum =
      ∑ k ∈ range r.joints.length, r.extraCost s k * x.entry (6 + k) ^ 2 := by
  have hentry (e : String × ℝ) : ((r.model.jointIndex e.1).elim 0 fun index =>
      e.2 * x.entry index.velocity ^ 2) = ∑ k ∈ range r.joints.length,
        if r.joints.findIdx? (·.name = e.1) = some k then e.2 * x.entry (6 + k) ^ 2 else 0 := by
    rw [sum_found lt_of_findIdx?_eq_some]
    exact Option.elim_map _
  rw [Assembler.sum_jointCosts hcreate fun i w => w * x.entry i ^ 2,
    List.map_congr_left fun e _ => hentry e, sum_map_sum]
  refine sum_congr rfl fun k _ => ?_
  rw [extraCost, ← List.sum_map_mul_right]
  simp only [ite_mul, zero_mul]

/-! ### A tick without contacts -/

section Tick

variable {a : Assembler ℝ} {objectives : List (TrackingObjective ℝ)}
  {samples : String → Option (TrajectorySample ℝ)} {results : List (Option (TaskTerm ℝ))}
  {terms : List (TaskTerm ℝ)}

/-- Every term of a tick whose active objectives are for joints is about one velocity. -/
theorem exists_single_of_mem (hobjectives : ∀ o ∈ objectives, o.WellShaped ∧
      ∀ t ∈ o.activeTarget phase timeInPhase, ∃ name, t = .joint name)
    (hresults : List.Forall₂ (fun o result => o.evaluate r.model state phase timeInPhase
      (samples o.name) = .ok result) objectives results) :
    ∀ t ∈ results.flatMap Option.toList, ∃ j w c, t.Single r.numVelocities j w c := by
  intro t ht
  obtain ⟨result, hresult, ht⟩ := List.mem_flatMap.1 ht
  obtain ⟨o, ho, hevaluate⟩ := exists_of_mem_forall₂ hresults hresult
  obtain ⟨hshaped, hjoint⟩ := hobjectives o ho
  obtain ⟨-, rfl⟩ | ⟨target, _, _, htarget, -⟩ := TrackingObjective.of_evaluate_eq_ok hevaluate
  · exact absurd ht List.not_mem_nil
  · obtain ⟨name, rfl⟩ := hjoint target htarget
    obtain ⟨s, index, t', -, -, -, rfl, hsingle⟩ :=
      TrackingObjective.of_evaluate_joint_eq_ok hshaped htarget hevaluate
    obtain rfl := List.mem_singleton.1 ht
    exact ⟨_, _, _, hsingle⟩

theorem numLoopRows_tickData (hloops : r.loops = none) : (r.tickData state []).numLoopRows = 0 := by
  have hnone : (r.tickData state []).loops = none := hloops
  rw [TickData.numLoopRows, hnone]

theorem numActuators_eq (hfree : r.baseActuated = false) :
    r.numActuators = r.joints.length := by
  have hbase : r.baseActuators = 0 := by rw [baseActuators, hfree, if_neg Bool.false_ne_true]
  exact (congrArg (· + r.joints.length) hbase).trans (Nat.zero_add _)

theorem numActuators_tickData (hfree : r.baseActuated = false) :
    (r.tickData state []).numActuators = r.joints.length :=
  numActuators_eq hfree

variable (hfree : r.baseActuated = false) (hloops : r.loops = none)

include hfree hloops

omit hfree in
theorem start_inputs (s : Settings ℝ) :
    ((r.tickData state []).layout s).inputs.start = 6 + r.joints.length := by
  rw [TickData.layout_inputs, numLoopRows_tickData hloops]
  rfl

theorem numVariables_tickData (s : Settings ℝ) :
    ((r.tickData state []).layout s).numVariables = 6 + r.joints.length + r.joints.length := by
  have hslack (mode : ConstraintMode ℝ) : mode.slackRows 0 = 0 := by cases mode <;> rfl
  have hcontacts : 3 * (r.tickData state []).contacts.length = 0 := rfl
  rw [TickData.layout_numVariables, TickData.numHardVariables, hcontacts,
    numLoopRows_tickData hloops, numActuators_tickData hfree, hslack, hslack]
  rfl

omit hfree hloops in
theorem slice_accelerations_split (s : Settings ℝ) :
    (((r.tickData state []).layout s).split x).accelerations.slice 0 6 = x.slice 0 6 := by
  have haccel : (((r.tickData state []).layout s).split x).accelerations =
      x.slice 0 r.numVelocities := TickData.split_accelerations
  refine Vec.ext_entry (by simp) fun i hi => ?_
  rw [Vec.size_slice] at hi
  have hlt : 0 + i < r.numVelocities := by rw [numVelocities]; omega
  rw [Vec.entry_slice hi, Vec.entry_slice hi, haccel, Vec.entry_slice hlt, Nat.zero_add]

omit hfree hloops in
theorem entry_accelerations_split (s : Settings ℝ) {k : ℕ} (hk : k < r.joints.length) :
    (((r.tickData state []).layout s).split x).accelerations.entry (6 + k) = x.entry (6 + k) := by
  have haccel : (((r.tickData state []).layout s).split x).accelerations =
      x.slice 0 r.numVelocities := TickData.split_accelerations
  have hlt : 6 + k < r.numVelocities := Nat.add_lt_add_left hk 6
  rw [haccel, Vec.entry_slice hlt, Nat.zero_add]

theorem entry_inputs_split (s : Settings ℝ) {k : ℕ} (hk : k < r.joints.length) :
    (((r.tickData state []).layout s).split x).inputs.entry k =
      x.entry (6 + r.joints.length + k) := by
  have hsize : ((r.tickData state []).layout s).inputs.size = r.joints.length :=
    (TickData.size_inputs _ s).trans (numActuators_tickData hfree)
  rw [VariableLayout.split, Vec.entry_slice (hk.trans_eq hsize.symm), start_inputs hloops]

omit hfree in
/-- Without contacts and loops the equations of motion and the effort limit are all there is. -/
theorem meets_tickData_iff {s : Settings ℝ} {z : Decision} : (r.tickData state []).Meets s z ↔
    (∀ j < r.numVelocities, r.RowHolds state [] z j) ∧
      ∀ bound ∈ r.effortLimit, ∀ k < r.numActuators, |z.inputs.entry k| ≤ bound := by
  have hnone : (r.tickData state []).loops = none := hloops
  have hno {e : (ContactPoint ℝ × PointKinematics ℝ) × ℕ} {P : Prop}
      (he : e ∈ (r.tickData state []).numbered) : P := absurd he List.not_mem_nil
  have hrow (j : ℕ) : r.RowHolds state [] z j ↔
      ((r.massMatrix state).mulVec z.accelerations).entry j + (r.bias state).entry j =
        (r.actuation.mulVec z.inputs).entry j + (r.tickData state []).contactTorque z j
          + (r.tickData state []).loopTorque z j := by
    rw [RowHolds, TickData.loopTorque, hnone, Option.elim_none, add_zero]
  have heffort {bound : ℝ} {k : ℕ} (hk : k < r.numActuators) :
      (Vec.replicate r.numActuators bound).entry k = bound := Vec.entry_ofFn_of_lt hk
  constructor
  · rintro ⟨hdynamics, -, -, -, -, hlimits⟩
    refine ⟨fun j hj => (hrow j).2 (hdynamics j hj), fun bound hbound k hk => ?_⟩
    exact (hlimits _ (Option.mem_map_of_mem _ hbound) k hk).trans_eq (heffort hk)
  · rintro ⟨hrows, hbounds⟩
    refine ⟨fun j hj => (hrow j).1 (hrows j hj), fun e he => hno he, fun loops hl => ?_,
      fun e he => hno he, fun e he => hno he, fun limits hlimits k hk => ?_⟩
    · rw [hnone] at hl
      cases hl
    · obtain ⟨bound, hbound, rfl⟩ := Option.mem_map.1 hlimits
      exact (hbounds bound hbound k hk).trans_eq (heffort hk).symm

/-- What is feasible in a tick without contacts: the base falls freely, and each rotor follows its
input within the effort limit. -/
theorem feasible_tickData_iff {K : Mat ℝ} (hright : r.baseMass state * K = .identity 6)
    (hleft : K * r.baseMass state = .identity 6) :
    ((r.tickData state []).program a terms).Feasible x ↔
      (x.slice 0 6 = -K.mulVec (r.baseBias state)) ∧
        (∀ k < r.joints.length,
          r.rotorInertia k * x.entry (6 + k) = x.entry (6 + r.joints.length + k)) ∧
        ∀ bound ∈ r.effortLimit, ∀ k < r.joints.length,
          |x.entry (6 + r.joints.length + k)| ≤ bound := by
  let z := ((r.tickData state []).layout a.settings).split x
  have hshaped : (r.tickData state []).Shaped r.numVelocities r.numActuators :=
    shaped_tickData (by simp [hloops])
  have hbase : z.accelerations.slice 0 6 = x.slice 0 6 := slice_accelerations_split _
  have hinput {k : ℕ} (hk : k < r.joints.length) :
      z.inputs.entry k = x.entry (6 + r.joints.length + k) :=
    entry_inputs_split hfree hloops _ hk
  have hjoint {k : ℕ} (hk : k < r.joints.length) : r.RowHolds state [] z (6 + k) ↔
      r.rotorInertia k * x.entry (6 + k) = x.entry (6 + r.joints.length + k) := by
    have hnone : r.baseActuators = 0 := by rw [baseActuators, hfree, if_neg Bool.false_ne_true]
    have haccel : z.accelerations.entry (6 + k) = x.entry (6 + k) :=
      entry_accelerations_split _ hk
    rw [rowHolds_joint_iff hk, haccel, hnone, Nat.zero_add, hinput hk, rotorInertia_eq hk]
  have hrows : (∀ j < r.numVelocities, r.RowHolds state [] z j) ↔
      (∀ j < 6, r.RowHolds state [] z j) ∧
        ∀ k < r.joints.length, r.RowHolds state [] z (6 + k) := by
    constructor
    · exact fun h => ⟨fun j hj => h j (Nat.lt_add_right _ hj),
        fun k hk => h (6 + k) (Nat.add_lt_add_left hk 6)⟩
    · rintro ⟨hfirst, hlast⟩ j hj
      by_cases hj6 : j < 6
      · exact hfirst j hj6
      · obtain ⟨k, rfl⟩ := Nat.exists_eq_add_of_le (Nat.le_of_not_lt hj6)
        exact hlast k (Nat.lt_of_add_lt_add_left hj)
  have hsplit : ((r.tickData state []).program a terms).layout.split x = z := rfl
  rw [TickData.feasible_program_iff hshaped, meets_tickData_iff hloops, hsplit, hrows, and_assoc,
    numActuators_eq hfree, forall_rowHolds_base_iff hfree hright hleft, hbase]
  refine and_congr_right' (and_congr (forall₂_congr fun k hk => hjoint hk)
    (forall₂_congr fun bound _ => forall₂_congr fun k hk => ?_))
  rw [hinput hk]

/-- The cost of a tick without contacts, as a parabola for each rotor. -/
theorem cost_eq_parabolas (hcreate : Assembler.create a.settings r.model = .ok a)
    (hobjectives : ∀ o ∈ objectives, o.WellShaped ∧
      ∀ t ∈ o.activeTarget phase timeInPhase, ∃ name, t = .joint name)
    (hresults : List.Forall₂ (fun o result => o.evaluate r.model state phase timeInPhase
      (samples o.name) = .ok result) objectives results)
    (hfits : a.CostFits (results.flatMap Option.toList)
      ((r.tickData state []).layout a.settings))
    (hx : x.size = ((r.tickData state []).layout a.settings).numVariables)
    (hinputs : ∀ k < r.joints.length,
      r.rotorInertia k * x.entry (6 + k) = x.entry (6 + r.joints.length + k)) :
    let demands (k : ℕ) := objectives.filterMap fun o =>
      o.demand r state phase timeInPhase (samples o.name) k
    ((r.tickData state []).program a (results.flatMap Option.toList)).cost x =
      a.settings.accelerationRegularization * ∑ i ∈ range 6, x.entry i ^ 2
        + ∑ k ∈ range r.joints.length, (r.curvature a.settings (demands k) k * x.entry (6 + k) ^ 2
          - 2 * pull (demands k) * x.entry (6 + k)) := by
  intro demands
  let d := r.tickData state []
  let l := d.layout a.settings
  have hsymm : ∀ t ∈ results.flatMap Option.toList, t.weight.IsSymmetric := by
    intro t ht
    obtain ⟨_, _, _, hsingle⟩ := exists_single_of_mem hobjectives hresults t ht
    exact hsingle.size_weight.isSymmetric
  have hrows : d.numLoopRows = 0 := numLoopRows_tickData hloops
  have haccel : l.accelerations.normSq x =
      ∑ i ∈ range 6, x.entry i ^ 2 + ∑ k ∈ range r.joints.length, x.entry (6 + k) ^ 2 := by
    have hsize : l.accelerations.size = 6 + r.joints.length := d.size_accelerations a.settings
    have hstart : l.accelerations.start = 0 :=
      congrArg Span.start (d.layout_accelerations a.settings)
    rw [Span.normSq, hstart, hsize, Vec.normSq_slice, sum_range_add]
    simp only [Nat.zero_add]
  have hinput : l.inputs.normSq x =
      ∑ k ∈ range r.joints.length, (r.rotorInertia k * x.entry (6 + k)) ^ 2 := by
    have hsize : l.inputs.size = r.joints.length :=
      (d.size_inputs a.settings).trans (numActuators_tickData hfree)
    rw [Span.normSq, hsize, Vec.normSq_slice, start_inputs hloops]
    exact sum_congr rfl fun k hk => by rw [hinputs k (mem_range.1 hk)]
  have hforce : l.contactForces.normSq x = 0 := TickData.normSq_contactForces
  have hcontact : a.settings.contactMode.penalty (l.contactSlack.normSq x) = 0 :=
    TickData.penalty_contactSlack.trans (ConstraintMode.penalty_zero _)
  have hloop : a.settings.loopMode.penalty (l.loopSlack.normSq x) = 0 := by
    have hsize : l.loopSlack.size = 0 := by
      rw [d.size_loopSlack, hrows]
      cases a.settings.loopMode <;> rfl
    rw [Span.normSq, hsize, Vec.normSq_slice, range_zero, sum_empty, ConstraintMode.penalty_zero]
  rw [TickData.cost_program hfits hsymm hx, ← sum_map_sub, sum_shares_eq hobjectives hresults,
    sum_extraCosts_eq hcreate, haccel, hinput, hforce, hcontact, hloop]
  simp only [sum_demands, mul_add, mul_sum, mul_zero, add_zero]
  rw [add_left_comm]
  simp only [add_assoc, ← sum_add_distrib]
  refine congrArg _ (sum_congr rfl fun k _ => ?_)
  rw [curvature]
  ring

end Tick

/-! ### The minimizer -/

/-- The decision variables of a tick without contacts: base accelerations, rotor accelerations, and
the inputs that cause these. -/
noncomputable def settled (r : FloatingBody ℝ) (base : Vec ℝ) (accel : ℕ → ℝ) : Vec ℝ :=
  let n := r.joints.length
  .ofFn (6 + n + n) fun i =>
    if i < 6 then base.entry i
    else if i < 6 + n then accel (i - 6)
    else r.rotorInertia (i - (6 + n)) * accel (i - (6 + n))

section Settled

variable {base : Vec ℝ} {accel : ℕ → ℝ}

theorem slice_settled (hbase : base.size = 6) : (r.settled base accel).slice 0 6 = base := by
  refine Vec.ext_entry ((Vec.size_slice _ _ _).trans hbase.symm) fun i hi => ?_
  rw [Vec.size_slice] at hi
  rw [Vec.entry_slice hi, Nat.zero_add, settled, Vec.entry_ofFn_of_lt (by omega), if_pos hi]

theorem entry_settled_accel {k : ℕ} (hk : k < r.joints.length) :
    (r.settled base accel).entry (6 + k) = accel k := by
  rw [settled, Vec.entry_ofFn_of_lt (by omega), if_neg (by omega), if_pos (by omega),
    Nat.add_sub_cancel_left]

theorem entry_settled_input {k : ℕ} (hk : k < r.joints.length) :
    (r.settled base accel).entry (6 + r.joints.length + k) = r.rotorInertia k * accel k := by
  rw [settled, Vec.entry_ofFn_of_lt (by omega), if_neg (by omega), if_neg (by omega),
    Nat.add_sub_cancel_left]

/-- A vector that moves alike with the same inputs is the same. -/
theorem eq_settled (hx : x.size = 6 + r.joints.length + r.joints.length)
    (hbase : x.slice 0 6 = base) (haccel : ∀ k < r.joints.length, x.entry (6 + k) = accel k)
    (hinputs : ∀ k < r.joints.length,
      r.rotorInertia k * x.entry (6 + k) = x.entry (6 + r.joints.length + k)) :
    x = r.settled base accel := by
  refine Vec.ext_entry (hx.trans (Vec.size_ofFn _ _).symm) fun i hi => ?_
  rw [hx] at hi
  rw [settled, Vec.entry_ofFn_of_lt hi]
  split
  · rename_i hi6
    rw [← hbase, Vec.entry_slice hi6, Nat.zero_add]
  · rename_i hi6
    obtain ⟨k, rfl⟩ := Nat.exists_eq_add_of_le (Nat.le_of_not_lt hi6)
    split
    · rename_i hk
      rw [haccel k (Nat.lt_of_add_lt_add_left hk), Nat.add_sub_cancel_left]
    · rename_i hk
      obtain ⟨j, hj⟩ := Nat.exists_eq_add_of_le (Nat.le_of_not_lt hk)
      have hlt : j < r.joints.length := by omega
      rw [hj, ← hinputs j hlt, haccel j hlt, Nat.add_sub_cancel_left]

end Settled

section Minimizer

variable {a : Assembler ℝ} {objectives : List (TrackingObjective ℝ)}
  {samples : String → Option (TrajectorySample ℝ)} {results : List (Option (TaskTerm ℝ))}

/-- An objective asks nothing negative of any rotor. -/
theorem weight_nonneg_of_demand {o : TrackingObjective ℝ}
    (hweight : ∀ t ∈ o.activeTarget phase timeInPhase, 0 ≤ (o.effectiveWeight phase).entry 0 0)
    {sample : Option (TrajectorySample ℝ)} {k : ℕ} {d : Demand}
    (hd : o.demand r state phase timeInPhase sample k = some d) : 0 ≤ d.weight := by
  rw [TrackingObjective.demand] at hd
  split at hd
  · rename_i htarget _
    split at hd
    · cases hd
      exact hweight _ htarget
    · cases hd
  · cases hd

theorem curvature_pos (hs : a.settings.Valid) {ds : List Demand} (hds : ∀ d ∈ ds, 0 ≤ d.weight)
    (k : ℕ) : 0 < r.curvature a.settings ds k := by
  have hweights : 0 ≤ (ds.map (·.weight)).sum := List.sum_nonneg (List.forall_mem_map.2 hds)
  have haccel := Scalar.isPositive_real.1 hs.accelerationRegularization
  have hinput := mul_nonneg (Scalar.isNonnegative_real.1 hs.inputRegularization)
    (sq_nonneg (r.rotorInertia k))
  have hextra : 0 ≤ r.extraCost a.settings k := by
    refine List.sum_nonneg (List.forall_mem_map.2 fun e he => ?_)
    split
    · exact Scalar.isNonnegative_real.1 (hs.jointCosts e he)
    · exact le_rfl
  rw [curvature]
  linarith

theorem rotorInertia_mul_follow {k : ℕ} (hrotor : 0 < r.rotorInertia k) (s : Settings ℝ)
    (ds : List Demand) : r.rotorInertia k * r.follow s ds k =
      limited r.effortLimit (r.rotorInertia k * (pull ds / r.curvature s ds k)) :=
  mul_div_cancel₀ _ hrotor.ne'

/-- No acceleration within the effort limit costs less than that of a rotor that follows its
demands. -/
theorem parabola_follow_le {k : ℕ} (hrotor : 0 < r.rotorInertia k) {s : Settings ℝ}
    {ds : List Demand} (hcurvature : 0 < r.curvature s ds k) {accel : ℝ}
    (haccel : ∀ bound ∈ r.effortLimit, |r.rotorInertia k * accel| ≤ bound) :
    r.curvature s ds k * r.follow s ds k ^ 2 - 2 * pull ds * r.follow s ds k
        + r.curvature s ds k * (accel - r.follow s ds k) ^ 2 ≤
      r.curvature s ds k * accel ^ 2 - 2 * pull ds * accel :=
  parabola_le (limited_slope hrotor hcurvature haccel (rotorInertia_mul_follow hrotor s ds))

section Free

variable (hfree : r.baseActuated = false) (hloops : r.loops = none)
  (hrotors : ∀ k < r.joints.length, 0 < r.rotorInertia k) {K : Mat ℝ}
  (hright : r.baseMass state * K = .identity 6) (hleft : K * r.baseMass state = .identity 6)

include hfree hloops hrotors hright hleft

/-- A base that falls freely and rotors that follow their demands meet the constraints. -/
theorem feasible_settled (hlimit : ∀ bound ∈ r.effortLimit, 0 ≤ bound)
    (terms : List (TaskTerm ℝ)) (demands : ℕ → List Demand) :
    ((r.tickData state []).program a terms).Feasible
      (r.settled (-K.mulVec (r.baseBias state)) fun k => r.follow a.settings (demands k) k) := by
  have hbase : (-K.mulVec (r.baseBias state)).size = 6 :=
    (Vec.size_neg _).trans ((Mat.size_mulVec _ _).trans (congrArg Mat.rows hleft))
  refine (feasible_tickData_iff hfree hloops hright hleft).2
    ⟨slice_settled hbase, fun k hk => ?_, fun bound hbound k hk => ?_⟩
  · rw [entry_settled_accel hk, entry_settled_input hk]
  · rw [entry_settled_input hk, rotorInertia_mul_follow (hrotors k hk)]
    exact abs_limited_le hlimit _ bound hbound

/-- The one minimizer of the program of a tick without contacts. -/
theorem isMinimizer_program_iff (hlimit : ∀ bound ∈ r.effortLimit, 0 ≤ bound)
    (hs : a.settings.Valid) (hcreate : Assembler.create a.settings r.model = .ok a)
    (hobjectives : ∀ o ∈ objectives, o.WellShaped ∧
      ∀ t ∈ o.activeTarget phase timeInPhase, ∃ name, t = .joint name)
    (hweights : ∀ o ∈ objectives, ∀ t ∈ o.activeTarget phase timeInPhase,
      0 ≤ (o.effectiveWeight phase).entry 0 0)
    (hresults : List.Forall₂ (fun o result => o.evaluate r.model state phase timeInPhase
      (samples o.name) = .ok result) objectives results)
    (hfits : a.CostFits (results.flatMap Option.toList)
      ((r.tickData state []).layout a.settings)) (y : Vec ℝ) :
    let demands (k : ℕ) := objectives.filterMap fun o =>
      o.demand r state phase timeInPhase (samples o.name) k
    ((r.tickData state []).program a (results.flatMap Option.toList)).IsMinimizer y ↔
      y = r.settled (-K.mulVec (r.baseBias state)) fun k =>
        r.follow a.settings (demands k) k := by
  intro demands
  let n := r.joints.length
  let curvature (k : ℕ) := r.curvature a.settings (demands k) k
  let rest (k : ℕ) := r.follow a.settings (demands k) k
  let x := r.settled (-K.mulVec (r.baseBias state)) rest
  let p := (r.tickData state []).program a (results.flatMap Option.toList)
  have hsize : p.numVariables = 6 + n + n :=
    (TickData.numVariables_program _ _).trans (numVariables_tickData hfree hloops _)
  have hxsize : x.size = p.numVariables := (Vec.size_ofFn _ _).trans hsize.symm
  have hcurvature (k : ℕ) : 0 < curvature k := by
    refine curvature_pos hs (fun d hd => ?_) k
    obtain ⟨o, ho, hdemand⟩ := List.mem_filterMap.1 hd
    exact weight_nonneg_of_demand (hweights o ho) hdemand
  have hfeasible : p.Feasible x :=
    feasible_settled hfree hloops hrotors hright hleft hlimit _ demands
  have hiff {v : Vec ℝ} : p.Feasible v ↔ _ := feasible_tickData_iff hfree hloops hright hleft
  let gap (y : Vec ℝ) := ∑ k ∈ range n, curvature k * (y.entry (6 + k) - rest k) ^ 2
  have hterm (y : Vec ℝ) : ∀ k ∈ range n, 0 ≤ curvature k * (y.entry (6 + k) - rest k) ^ 2 :=
    fun k _ => mul_nonneg (hcurvature k).le (sq_nonneg _)
  refine ConeProgram.isMinimizer_iff_eq hxsize hfeasible (fun y => sum_nonneg (hterm y)) ?_ ?_ y
  · intro y hy hyfeasible
    obtain ⟨hybase, hyinputs, hylimit⟩ := hiff.1 hyfeasible
    obtain ⟨hxbase, hxinputs, -⟩ := hiff.1 hfeasible
    have hfall : ∑ i ∈ range 6, x.entry i ^ 2 = ∑ i ∈ range 6, y.entry i ^ 2 := by
      have hslices := congrArg Vec.normSq (hxbase.trans hybase.symm)
      simpa only [Vec.normSq_slice, Nat.zero_add] using hslices
    have hrotor : ∀ k ∈ range n, curvature k * x.entry (6 + k) ^ 2
        - 2 * pull (demands k) * x.entry (6 + k)
        + curvature k * (y.entry (6 + k) - rest k) ^ 2 ≤
          curvature k * y.entry (6 + k) ^ 2 - 2 * pull (demands k) * y.entry (6 + k) := by
      intro k hk
      have hk := mem_range.1 hk
      rw [entry_settled_accel hk]
      refine parabola_follow_le (hrotors k hk) (hcurvature k) fun bound hbound => ?_
      rw [hyinputs k hk]
      exact hylimit bound hbound k hk
    have hcost {v : Vec ℝ} (hv : v.size = p.numVariables) :=
      cost_eq_parabolas hfree hloops hcreate hobjectives hresults hfits
        (hv.trans (TickData.numVariables_program _ _))
    rw [hcost hxsize hxinputs, hcost hy hyinputs, hfall, add_assoc, ← sum_add_distrib]
    exact add_le_add_right (sum_le_sum hrotor) _
  · intro y hy hyfeasible hgap
    obtain ⟨hybase, hyinputs, -⟩ := hiff.1 hyfeasible
    refine eq_settled (hy.trans hsize) hybase (fun k hk => ?_) hyinputs
    have hzero := (sum_eq_zero_iff_of_nonneg (hterm y)).1
      (hgap.antisymm (sum_nonneg (hterm y))) k (mem_range.2 hk)
    have hsq := (mul_eq_zero.1 hzero).resolve_left (hcurvature k).ne'
    exact sub_eq_zero.1 (pow_eq_zero_iff two_ne_zero |>.1 hsq)

end Free

end Minimizer

end FloatingBody

/-- The rotors of a floating body without base actuators, loops and contacts follow their own
feedback. When all active objectives are for joints, with weights `Wᵢ` and commands `ÿᵢ`, the
program has one minimizer: the base falls freely, `v̇ = -M⁻¹ c`, and the input of a rotor with
inertia `I` is `I a` for `a = Σ Wᵢ ÿᵢ / (Σ Wᵢ + w_acc + w + w_u I²)`, cut off at the effort limit. -/
theorem rotors_follow_feedback [Spectrum ℝ] {r : FloatingBody ℝ} (hfree : r.baseActuated = false)
    (hmass : 0 < r.mass) (hinertia : r.inertia.IsInvertible)
    (hrotors : ∀ j ∈ r.joints, 0 < j.inertia) (hloops : r.loops = none)
    (hlimit : ∀ bound ∈ r.effortLimit, 0 ≤ bound) {settings : Settings ℝ}
    (hsettings : settings.validate = .ok ()) {a : Assembler ℝ}
    (hcreate : Assembler.create settings r.model = .ok a) {state : RobotState ℝ}
    (hstate : state.q.size = r.numPositions ∧ state.v.size = r.numVelocities)
    (hq : Quaternion.ofVec state.q 3 ≠ ⟨0, 0, 0, 0⟩) {objectives : List (TrackingObjective ℝ)}
    (hmade : ∀ o ∈ objectives, o.Made) {phase : PhaseId} {timeInPhase : ℝ}
    (hjoints : ∀ o ∈ objectives, ∀ t ∈ o.activeTarget phase timeInPhase,
      (∃ name, t = .joint name) ∧ 0 ≤ (o.effectiveWeight phase).entry 0 0)
    {samples : String → Option (TrajectorySample ℝ)} {results : List (Option (TaskTerm ℝ))}
    (hresults : List.Forall₂ (fun o result => o.evaluate r.model state phase timeInPhase
      (samples o.name) = .ok result) objectives results) :
    ∃ p x, a.build r.model state (results.flatMap Option.toList) [] = .ok p ∧
      (∀ y, p.IsMinimizer y ↔ y = x) ∧
      let z := p.layout.split x
      (∃ K, r.baseMass state * K = .identity 6 ∧ K * r.baseMass state = .identity 6 ∧
        z.accelerations.slice 0 6 = -K.mulVec (r.baseBias state)) ∧
      ∀ k (hk : k < r.joints.length),
        let inertia := r.joints[k].inertia
        let demands := objectives.filterMap fun o =>
          o.demand r state phase timeInPhase (samples o.name) k
        let accel := (demands.map fun d => d.weight * d.command).sum /
          ((demands.map (·.weight)).sum + settings.accelerationRegularization
            + r.extraCost settings k + settings.inputRegularization * inertia ^ 2)
        z.inputs.entry k = limited r.effortLimit (inertia * accel) ∧
          z.accelerations.entry (6 + k) = z.inputs.entry k / inertia := by
  obtain ⟨K, hright, hleft⟩ := FloatingBody.exists_baseMass_inverse hq hmass hinertia
  have hvalid := Settings.validate_eq_ok_iff.1 hsettings
  have hshaped : ∀ o ∈ objectives, o.WellShaped ∧
      ∀ t ∈ o.activeTarget phase timeInPhase, ∃ name, t = .joint name :=
    fun o ho => ⟨(hmade o ho).wellShaped, fun t ht => (hjoints o ho t ht).1⟩
  have hinertias : ∀ k < r.joints.length, 0 < r.rotorInertia k := by
    intro k hk
    rw [FloatingBody.rotorInertia_eq hk]
    exact hrotors _ (List.getElem_mem hk)
  have hterms : ∀ t ∈ results.flatMap Option.toList, t.Fits r.numVelocities := by
    intro t ht
    obtain ⟨result, hresult, ht⟩ := List.mem_flatMap.1 ht
    obtain ⟨o, ho, hevaluate⟩ := exists_of_mem_forall₂ hresults hresult
    exact (hshaped o ho).1.fits_of_evaluate_eq_ok r.serves.toRegular hevaluate t
      (Option.mem_toList.1 ht)
  have hcosts : ∀ c ∈ a.jointCosts, c.1 < r.numVelocities := by
    intro c hc
    obtain ⟨e, -, index, hindex, rfl⟩ := Assembler.exists_of_mem_jointCosts hcreate hc
    exact (r.serves.jointIndex e.1 index hindex).2
  obtain ⟨rfl, -⟩ := Assembler.of_create_eq_ok hcreate
  have hbuild := FloatingBody.build_eq_ok hstate (List.forall_mem_nil _) (by simp [hloops]) hterms
    hcosts
  have hfits : a.CostFits (results.flatMap Option.toList)
      ((r.tickData state []).layout a.settings) := TickData.costFits _ a hterms hcosts
  have hminimizer := FloatingBody.isMinimizer_program_iff hfree hloops hinertias hright hleft
    hlimit hvalid hcreate hshaped (fun o ho t ht => (hjoints o ho t ht).2) hresults hfits
  have hbase : (-K.mulVec (r.baseBias state)).size = 6 :=
    (Vec.size_neg _).trans ((Mat.size_mulVec _ _).trans (congrArg Mat.rows hleft))
  let x := r.settled (-K.mulVec (r.baseBias state)) fun k => r.follow a.settings
    (objectives.filterMap fun o => o.demand r state phase timeInPhase (samples o.name) k) k
  refine ⟨_, x, hbuild, hminimizer, ⟨K, hright, hleft, ?_⟩, fun k hk => ?_⟩
  · exact (FloatingBody.slice_accelerations_split _).trans (FloatingBody.slice_settled hbase)
  · intro inertia demands accel
    have hrotor : r.rotorInertia k = inertia := FloatingBody.rotorInertia_eq hk
    have hvertex : pull demands / r.curvature a.settings demands k = accel := by
      rw [FloatingBody.curvature, hrotor]
      rfl
    have hfollow : r.follow a.settings demands k =
        limited r.effortLimit (inertia * accel) / inertia := by
      rw [FloatingBody.follow, hrotor, hvertex]
    have hpos : inertia ≠ 0 := hrotor ▸ (hinertias k hk).ne'
    have hinput : x.entry (6 + r.joints.length + k) = limited r.effortLimit (inertia * accel) := by
      rw [FloatingBody.entry_settled_input hk, hrotor]
      exact (congrArg _ hfollow).trans (mul_div_cancel₀ _ hpos)
    have hentry : ((((r.tickData state []).layout a.settings).split x).inputs).entry k =
        limited r.effortLimit (inertia * accel) :=
      (FloatingBody.entry_inputs_split hfree hloops a.settings hk).trans hinput
    refine ⟨hentry, (FloatingBody.entry_accelerations_split a.settings hk).trans ?_⟩
    exact (FloatingBody.entry_settled_accel hk).trans
      (hfollow.trans (congrArg (· / inertia) hentry.symm))

/-- A body with two rotors, of which the first is asked for more than its motor can give. The least
eigenvalue of a matrix of one entry is that entry. -/
theorem rotors_follow_feedback_twoRotors :
    let _ : Spectrum ℝ := ⟨fun m => m.entry 0 0⟩
    let r : FloatingBody ℝ :=
      ⟨"base", 1, .identity, 10, false, [⟨"wheel", 2⟩, ⟨"arm", 1⟩], some 3, none⟩
    let state : RobotState ℝ := ⟨.ofList [0, 0, 0, 1, 0, 0, 0, 0, 0], .zeros 8⟩
    let sample : TrajectorySample ℝ := ⟨.ofList [1], .zeros 1, .zeros 1⟩
    ∃ turn a term p x,
      TrackingObjective.create "turn" (.jointSpace (.always "wheel")) (.uniform 1 100 1)
        (.identity 1) = .ok turn ∧
      Assembler.create .standard r.model = .ok a ∧
      turn.evaluate r.model state .leftStance 0 (some sample) = .ok (some term) ∧
      a.build r.model state [term] [] = .ok p ∧ (∀ y, p.IsMinimizer y ↔ y = x) ∧
      let z := p.layout.split x
      (z.inputs.entry 0 = 3 ∧ z.accelerations.entry 6 = 3 / 2) ∧
        z.inputs.entry 1 = 0 ∧ z.accelerations.entry 7 = 0 := by
  intro _ r state sample
  let turn : TrackingObjective ℝ :=
    ⟨"turn", .jointSpace (.always "wheel"), .uniform 1 100 1, .identity 1, .empty, none,
      .trajectory⟩
  let a : Assembler ℝ := ⟨.standard, []⟩
  let samples (_ : String) : Option (TrajectorySample ℝ) := some sample
  have hleast : ∀ m ∈ [Mat.scalarMatrix 1 (100 : ℝ), .scalarMatrix 1 1, .identity 1],
      0 ≤ m.entry 0 0 := by
    simp [Mat.scalarMatrix, Mat.identity, Mat.diagonal]
  have hturn : TrackingObjective.create "turn" (.jointSpace (.always "wheel"))
      (.uniform 1 100 1) (.identity 1) = .ok turn :=
    TrackingObjective.create_uniform_eq_ok hleast
  have hmade : ∀ o ∈ [turn], o.Made := List.forall_mem_singleton.2 (.create hturn)
  obtain ⟨term, hterm⟩ : ∃ term, turn.evaluate r.model state .leftStance 0 (some sample) =
    .ok (some term) := ⟨_, rfl⟩
  have hweight : (turn.effectiveWeight .leftStance).entry 0 0 = 1 := by
    change (Mat.identity 1 : Mat ℝ).entry 0 0 = 1
    simp [Mat.identity, Mat.diagonal]
  have hcommand : turn.jointCommand state sample ⟨7, 6⟩ = 100 := by
    have hkp : turn.gains.kp.entry 0 0 = 100 := by
      simp [turn, FeedbackGains.uniform, Mat.scalarMatrix]
    have hangle : state.q.entry 7 = 0 := rfl
    have hvalue : sample.value.entry 0 = 1 := rfl
    rw [TrackingObjective.jointCommand, hkp, hangle, hvalue]
    simp [state, sample]
  have hfirst : turn.demand r state .leftStance 0 (samples turn.name) 0 =
      some ⟨(turn.effectiveWeight .leftStance).entry 0 0,
        turn.jointCommand state sample ⟨7, 6⟩⟩ := rfl
  have hsecond : turn.demand r state .leftStance 0 (samples turn.name) 1 = none := rfl
  have hinertia : r.inertia.IsInvertible := by
    have hone : (Mat3.identity : Mat3 ℝ) * .identity = .identity := by
      simp [Mat3.mul_def, Mat3.identity, Mat3.diagonal, Mat3.transpose, Mat3.mulVec, Vec3.dot_eq]
    exact ⟨.identity, hone, hone⟩
  have hrotors : ∀ j ∈ r.joints, 0 < j.inertia := by simp [r]
  have hlimit : ∀ bound ∈ r.effortLimit, 0 ≤ bound := by simp [r]
  have hq : Quaternion.ofVec state.q 3 ≠ ⟨0, 0, 0, 0⟩ := by
    have hone : (Quaternion.ofVec state.q 3).w = 1 := rfl
    intro hzero
    rw [hzero] at hone
    exact zero_ne_one hone
  have hjoints : ∀ o ∈ [turn], ∀ t ∈ o.activeTarget .leftStance 0,
      (∃ name, t = .joint name) ∧ 0 ≤ (o.effectiveWeight .leftStance).entry 0 0 := by
    refine List.forall_mem_singleton.2 ?_
    rintro _ ⟨⟩
    exact ⟨⟨"wheel", rfl⟩, hweight.symm ▸ zero_le_one⟩
  have ha : Assembler.create .standard r.model = .ok a := rfl
  have hstate : state.q.size = r.numPositions ∧ state.v.size = r.numVelocities := ⟨rfl, rfl⟩
  have hresults : List.Forall₂ (fun o result => o.evaluate r.model state .leftStance 0
    (samples o.name) = .ok result) [turn] [some term] := .cons hterm .nil
  have hfree : r.baseActuated = false := rfl
  obtain ⟨p, x, hbuild, hminimizer, -, hrotor⟩ := rotors_follow_feedback hfree one_pos
    hinertia hrotors rfl hlimit (Settings.validate_eq_ok_iff.2 Settings.valid_standard)
    ha hstate hq hmade hjoints hresults
  refine ⟨turn, a, term, p, x, hturn, ha, hterm, hbuild, hminimizer, ?_, ?_⟩
  · obtain ⟨hinput, haccel⟩ := hrotor 0 (by decide)
    have hbound : (3 : ℝ) ≤ 2 * (100 / (1 + Scalar.ofDecimal 1 4)) := by
      norm_num [Scalar.ofDecimal_real]
    have hthree : (p.layout.split x).inputs.entry 0 = 3 := by
      rw [hinput]
      simp only [List.filterMap_cons, hfirst, hweight, hcommand]
      simp [limited, r, Settings.standard, FloatingBody.extraCost, SortedMap.empty,
        min_eq_left hbound]
    exact ⟨hthree, haccel.trans (by rw [hthree]; rfl)⟩
  · obtain ⟨hinput, haccel⟩ := hrotor 1 (by decide)
    have hzero : (p.layout.split x).inputs.entry 1 = 0 := by
      rw [hinput]
      simp only [List.filterMap_cons, hsecond]
      simp [limited, r]
    exact ⟨hzero, haccel.trans (by rw [hzero, zero_div])⟩

end WholeBody
