import Mathlib
import WholeBody.Controller.Basic
import WholeBody.Proofs.Robot.Standing

/-!
# The motion is unique

Every share of the Hessian is a form that is nowhere negative, and the shares of the accelerations
and of all slack have positive weights. The Hessian is not positive at the difference of two
minimizers, so they agree in these blocks, and in the inputs and the contact forces as soon as these
are regularized. Nothing regularizes the loop forces.

## Main statements

* `TickData.regularization_le_form` — a lower bound of the Hessian.
* `TickData.sameMotion_of_form_nonpos` — vectors that agree since the Hessian says so.
* `sameMotion_of_isMinimizer` — the minimizers of every program that is built.
-/

namespace WholeBody

open Controller (block)

/-- Two points that move a robot alike. Their inputs and their contact forces may differ as long as
these cost nothing. -/
structure SameMotion (s : Settings ℝ) (l : VariableLayout) (x y : Vec ℝ) : Prop where
  accelerations : block x l.accelerations = block y l.accelerations
  contactSlack : block x l.contactSlack = block y l.contactSlack
  loopSlack : block x l.loopSlack = block y l.loopSlack
  inputs : 0 < s.inputRegularization → block x l.inputs = block y l.inputs
  contactForces : 0 < s.contactForceRegularization →
    block x l.contactForces = block y l.contactForces

/-! ### Blocks -/

section Blocks

variable {x y : Vec ℝ} {t : Span} {w : ℝ} {mode : ConstraintMode ℝ}

/-- Blocks whose difference has no length are equal. -/
theorem Span.block_eq (h : y.size ≤ x.size) (hzero : t.normSq (x - y) = 0) :
    block x t = block y t := by
  rw [normSq, Vec.normSq_slice] at hzero
  have hentries := (Finset.sum_eq_zero_iff_of_nonneg fun i _ => sq_nonneg _).1 hzero
  have hsize (z : Vec ℝ) : (block z t).size = t.size := Vec.size_slice _ _ _
  refine Vec.ext_entry ((hsize x).trans (hsize y).symm) fun i hi => ?_
  rw [hsize] at hi
  have hdiff := pow_eq_zero_iff two_ne_zero |>.1 (hentries i (Finset.mem_range.2 hi))
  rw [Vec.entry_sub h, sub_eq_zero] at hdiff
  rw [block, block, Vec.entry_slice hi, Vec.entry_slice hi, hdiff]

/-- Blocks whose difference has a positive weight but costs nothing are equal. -/
theorem Span.block_eq_of_weight (h : y.size ≤ x.size) (hw : 0 < w)
    (hcost : w * t.normSq (x - y) ≤ 0) : block x t = block y t :=
  block_eq h ((nonpos_of_mul_nonpos_right hcost hw).antisymm (t.normSq_nonneg _))

/-- Slack whose difference costs nothing is equal. A hard family has none. -/
theorem ConstraintMode.Valid.block_eq (h : mode.Valid) (hxy : y.size ≤ x.size) {rows : ℕ}
    (hsize : t.size = mode.slackRows rows) (hcost : mode.penalty (t.normSq (x - y)) ≤ 0) :
    block x t = block y t := by
  cases mode with
  | hard =>
    refine Span.block_eq hxy ?_
    rw [Span.normSq, hsize]
    rfl
  | soft w => exact Span.block_eq_of_weight hxy (Scalar.isPositive_real.1 (h w rfl)) hcost

end Blocks

/-- The share of a task in the Hessian is nowhere negative. -/
theorem TaskTerm.form_hessian_nonneg {t : TaskTerm ℝ} {n : ℕ} (hfits : t.Fits n)
    (hweight : t.weight.IsPosSemidef) {v : Vec ℝ} (hv : v.size = t.jacobian.cols) :
    0 ≤ t.hessian.form v := by
  rw [form_hessian hv]
  exact mul_nonneg zero_le_two (hweight.2 _ (hfits.over_mulVec v))

namespace TickData

variable {d : TickData ℝ} {a : Assembler ℝ} {terms : List (TaskTerm ℝ)} {x y : Vec ℝ}

/-- The Hessian is at least what the blocks are regularized with. -/
theorem regularization_le_form (hfits : a.CostFits terms (d.layout a.settings))
    (hcosts : ∀ c ∈ a.jointCosts, 0 ≤ c.2) (hweights : ∀ t ∈ terms, t.weight.IsPosSemidef)
    (hx : x.size = (d.layout a.settings).numVariables) :
    let s := a.settings
    let l := d.layout s
    2 * (s.accelerationRegularization * l.accelerations.normSq x
      + s.inputRegularization * l.inputs.normSq x
      + s.contactForceRegularization * l.contactForces.normSq x
      + s.contactMode.penalty (l.contactSlack.normSq x)
      + s.loopMode.penalty (l.loopSlack.normSq x)) ≤ (d.hessian a terms).form x := by
  intro s l
  have htasks : 0 ≤ (terms.map fun t => t.hessian.form (x.slice 0 t.jacobian.cols)).sum := by
    refine List.sum_nonneg (List.forall_mem_map.2 fun t ht => ?_)
    exact TaskTerm.form_hessian_nonneg (hfits.1 t ht) (hweights t ht) (Vec.size_slice _ _ _)
  have hjoints : 0 ≤ (a.jointCosts.map fun c => 2 * (c.2 * x.entry c.1 ^ 2)).sum := by
    refine List.sum_nonneg (List.forall_mem_map.2 fun c hc => ?_)
    exact mul_nonneg zero_le_two (mul_nonneg (hcosts c hc) (sq_nonneg _))
  rw [(adds_hessian hfits hx).form, Mat.form_zeros]
  linarith

/-- Vectors at whose difference the Hessian is not positive move the robot alike. -/
theorem sameMotion_of_form_nonpos (hs : a.settings.Valid)
    (hfits : a.CostFits terms (d.layout a.settings)) (hcosts : ∀ c ∈ a.jointCosts, 0 ≤ c.2)
    (hweights : ∀ t ∈ terms, t.weight.IsPosSemidef) (hxy : x.size = y.size)
    (hx : x.size = (d.layout a.settings).numVariables)
    (hform : (d.hessian a terms).form (x - y) ≤ 0) :
    SameMotion a.settings (d.layout a.settings) x y := by
  have hbound := (regularization_le_form hfits hcosts hweights
    ((Vec.size_sub x y).trans hx)).trans hform
  obtain ⟨haccel, hinput, hforce, hcontact, hloop⟩ :=
    hs.penalties_nonneg (d.layout a.settings) (x - y)
  have hpos := Scalar.isPositive_real.1 hs.accelerationRegularization
  refine ⟨Span.block_eq_of_weight hxy.ge hpos ?_,
    hs.contactMode.block_eq hxy.ge (size_contactSlack d a.settings) ?_,
    hs.loopMode.block_eq hxy.ge (size_loopSlack d a.settings) ?_,
    fun hpos => Span.block_eq_of_weight hxy.ge hpos ?_,
    fun hpos => Span.block_eq_of_weight hxy.ge hpos ?_⟩
  all_goals linarith

end TickData

theorem Assembler.jointCosts_nonneg {settings : Settings ℝ} (hs : settings.Valid)
    {robot : RobotModel ℝ} {a : Assembler ℝ} (h : Assembler.create settings robot = .ok a) :
    ∀ c ∈ a.jointCosts, 0 ≤ c.2 := by
  intro c hc
  obtain ⟨e, he, index, -, rfl⟩ := Assembler.exists_of_mem_jointCosts h hc
  exact Scalar.isNonnegative_real.1 (hs.jointCosts e he)

/-- Two minimizers of a program that is built from validated settings move the robot alike, provided
that the weights of the tasks are positive semidefinite. -/
theorem sameMotion_of_isMinimizer {settings : Settings ℝ} (hsettings : settings.validate = .ok ())
    {robot model : RobotModel ℝ} {a : Assembler ℝ}
    (hcreate : Assembler.create settings robot = .ok a) {state : RobotState ℝ}
    {terms : List (TaskTerm ℝ)} {contacts : List (ContactPoint ℝ)} {p : ConeProgram ℝ}
    (hbuild : a.build model state terms contacts = .ok p)
    (hweights : ∀ t ∈ terms, t.weight.IsPosSemidef) {x y : Vec ℝ} (hx : p.IsMinimizer x)
    (hy : p.IsMinimizer y) : SameMotion settings p.layout x y := by
  obtain ⟨d, -, hfits, -, -, rfl⟩ := Assembler.of_build_eq_ok hbuild
  have hvalid := Settings.validate_eq_ok_iff.1 hsettings
  have hcosts := Assembler.jointCosts_nonneg hvalid hcreate
  obtain ⟨rfl, -⟩ := Assembler.of_create_eq_ok hcreate
  obtain ⟨hrows, hcols, -, -, hbounds, -⟩ := TickData.evaluable_program a terms hx.size
  exact TickData.sameMotion_of_form_nonpos hvalid hfits hcosts hweights
    (hx.size.trans hy.size.symm) (hx.size.trans (TickData.numVariables_program a terms))
    (hx.form_sub_nonpos hy ⟨hrows, hcols⟩ hbounds)

/-- A point mass that is told to stay, on its left or on its right foot. Contact forces cost nothing
here, and those of the two minimizers differ. -/
theorem sameMotion_of_isMinimizer_pointMass :
    let r : PointMass ℝ := ⟨"mass", 1, 10⟩
    let state : RobotState ℝ := ⟨.zeros 3, .zeros 3⟩
    let foot (name : String) : ContactPoint ℝ := ⟨name, ⟨"mass", 0⟩, .unitZ, none, none⟩
    let stay : TaskTerm ℝ := ⟨"stay", .identity 3, .zeros 3, .zeros 3, .identity 3, .zeros 3⟩
    ∃ a p, Assembler.create .standard r.model = .ok a ∧
      a.build r.model state [stay] [foot "left", foot "right"] = .ok p ∧
      ∃ x y : Vec ℝ, p.IsMinimizer x ∧ p.IsMinimizer y ∧ x ≠ y ∧
        SameMotion .standard p.layout x y := by
  intro r state foot stay
  let a : Assembler ℝ := ⟨.standard, []⟩
  let feet := [foot "left", foot "right"]
  let d := r.tickData state feet
  have hcreate : Assembler.create .standard r.model = .ok a := rfl
  have hvalid : a.settings.Valid := Settings.valid_standard
  have hstate : state.q.size = 3 ∧ state.v.size = 3 := ⟨rfl, rfl⟩
  have hbody : ∀ c ∈ feet, c.point.body = r.body := by simp [feet, foot, r]
  have hterms : ∀ t ∈ [stay], t.Fits 3 := List.forall_mem_singleton.2 ⟨rfl, rfl, rfl, rfl, le_rfl⟩
  have hweights : ∀ t ∈ [stay], t.weight.IsPosSemidef :=
    List.forall_mem_singleton.2 (Mat.isPosSemidef_identity 3)
  have hdrift : ∀ t ∈ [stay], ∀ i, t.drift.entry i = 0 := by
    refine List.forall_mem_singleton.2 fun i => ?_
    rw [TaskTerm.drift, Vec.entry_sub le_rfl, Vec.entry_zeros, sub_zero]
  have hbuild : a.build r.model state [stay] feet = .ok (d.program a [stay]) :=
    PointMass.build_eq_ok hstate hbody hterms (List.forall_mem_nil _)
  let x (k : ℕ) := (d.layout a.settings).join (PointMass.stand (Pi.single k 10))
  have hstand {k : ℕ} (hk : k < 2) : (d.program a [stay]).IsMinimizer (x k) := by
    have hshares (i : ℕ) : 0 ≤ (Pi.single k 10 : ℕ → ℝ) i := by
      rw [Pi.single_apply]
      split <;> norm_num
    refine PointMass.isMinimizer_stand hstate hbody hvalid rfl (List.forall_mem_nil _) hterms
      hweights hdrift (PointMass.meets_stand ?_ ?_ le_rfl (fun i _ => hshares i) ?_)
    · simp [feet, foot]
    · exact List.forall_mem_cons.2
        ⟨hvalid.defaultCone, List.forall_mem_singleton.2 hvalid.defaultCone⟩
    · rw [Finset.sum_pi_single']
      simpa [feet, r] using hk
  have hforce (k : ℕ) : ((d.layout a.settings).split (x k)).force 0 =
      ⟨0, 0, (Pi.single k 10 : ℕ → ℝ) 0⟩ :=
    TickData.split_join_force (by decide)
  have hleft := hstand (k := 0) two_pos
  have hright := hstand (k := 1) one_lt_two
  refine ⟨a, _, hcreate, hbuild, _, _, hleft, hright, fun heq => ?_,
    sameMotion_of_isMinimizer (Settings.validate_eq_ok_iff.2 hvalid) hcreate hbuild hweights hleft
      hright⟩
  have hsame := hforce 0
  rw [heq, hforce] at hsame
  simp at hsame

end WholeBody
