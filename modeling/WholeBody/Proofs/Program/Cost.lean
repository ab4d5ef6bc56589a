import Mathlib
import WholeBody.Proofs.Linear.Form
import WholeBody.Proofs.Program.Rows
import WholeBody.Proofs.Robot.PointMass
import WholeBody.Proofs.Validation

/-!
# What the cost of a tick means

The cost of a point is the weighted square of the acceleration error of every task, less what it is
at rest, and the squared lengths of accelerations, inputs, contact forces and slack with the weights
of the settings. Loop forces are free.

## Main statements

* `TaskTerm.cost_eq` — the share of one task.
* `TickData.adds_hessian`, `TickData.gradient_dot` — all shares together.
* `TickData.cost_program_eq_shares` — the cost of the program of a tick.
* `TickData.neg_drift_le_cost_program` — a lower bound of the cost.
* `cost_eq_squares` — the cost of every program that is built.
-/

namespace WholeBody

/-- The squared length of a vector. -/
noncomputable def Vec.normSq (v : Vec ℝ) : ℝ := v.dot v

/-- The squared length of a vector of three dimensions. -/
noncomputable def Vec3.normSq (v : Vec3 ℝ) : ℝ := v.dot v

/-- The squared length of a block of variables. -/
noncomputable def Span.normSq (t : Span) (x : Vec ℝ) : ℝ := (x.slice t.start t.size).normSq

/-- What a family pays for the squared length of its slack. -/
def ConstraintMode.penalty : ConstraintMode ℝ → ℝ → ℝ
  | hard, _ => 0
  | soft weight, normSq => weight * normSq

/-- The squared length of a part of a vector. -/
theorem Vec.normSq_slice (x : Vec ℝ) (start len : ℕ) :
    (x.slice start len).normSq = ∑ l ∈ Finset.range len, x.entry (start + l) ^ 2 := by
  rw [normSq, dot_eq_sum, size_slice]
  refine Finset.sum_congr rfl fun l hl => ?_
  rw [entry_slice (Finset.mem_range.1 hl), sq]

theorem Span.normSq_nonneg (t : Span) (x : Vec ℝ) : 0 ≤ t.normSq x := by
  rw [normSq, Vec.normSq_slice]
  exact Finset.sum_nonneg fun i _ => sq_nonneg _

theorem ConstraintMode.Valid.penalty_nonneg {mode : ConstraintMode ℝ} (h : mode.Valid) {c : ℝ}
    (hc : 0 ≤ c) : 0 ≤ mode.penalty c := by
  cases mode with
  | hard => exact le_rfl
  | soft w => exact mul_nonneg (Scalar.isPositive_real.1 (h w rfl)).le hc

/-- No part of the regularization is negative. -/
theorem Settings.Valid.penalties_nonneg {s : Settings ℝ} (hs : s.Valid) (l : VariableLayout)
    (x : Vec ℝ) :
    0 ≤ s.accelerationRegularization * l.accelerations.normSq x ∧
      0 ≤ s.inputRegularization * l.inputs.normSq x ∧
      0 ≤ s.contactForceRegularization * l.contactForces.normSq x ∧
      0 ≤ s.contactMode.penalty (l.contactSlack.normSq x) ∧
      0 ≤ s.loopMode.penalty (l.loopSlack.normSq x) := by
  have haccel := (Scalar.isPositive_real.1 hs.accelerationRegularization).le
  have hinput := Scalar.isNonnegative_real.1 hs.inputRegularization
  have hforce := Scalar.isNonnegative_real.1 hs.contactForceRegularization
  exact ⟨mul_nonneg haccel (l.accelerations.normSq_nonneg x),
    mul_nonneg hinput (l.inputs.normSq_nonneg x),
    mul_nonneg hforce (l.contactForces.normSq_nonneg x),
    hs.contactMode.penalty_nonneg (l.contactSlack.normSq_nonneg x),
    hs.loopMode.penalty_nonneg (l.loopSlack.normSq_nonneg x)⟩

theorem ConstraintMode.penalty_zero (mode : ConstraintMode ℝ) : mode.penalty 0 = 0 := by
  cases mode with
  | hard => rfl
  | soft w => exact mul_zero w

/-! ### Tasks -/

namespace TaskTerm

/-- The acceleration error of a task at zero acceleration, `J̇ v - ÿ`. -/
noncomputable def drift (t : TaskTerm ℝ) : Vec ℝ := t.jdotV - t.ddyCmd

/-- The acceleration error of a task, `J v̇ + J̇ v - ÿ`. -/
noncomputable def accelError (t : TaskTerm ℝ) (accelerations : Vec ℝ) : Vec ℝ :=
  t.jacobian.mulVec accelerations + t.drift

variable {t : TaskTerm ℝ} {n : ℕ} {v : Vec ℝ}

theorem form_hessian (hv : v.size = t.jacobian.cols) :
    t.hessian.form v = 2 * t.weight.form (t.jacobian.mulVec v) := by
  have htwo : t.hessian = (2 : ℝ) • (t.weightedJacobian * t.jacobian) := by
    change ((2 : ℕ) : ℝ) • _ = _
    rw [Nat.cast_ofNat]
  rw [htwo, Mat.form, Mat.dot_mulVec_smul, Mat.mulVec_mul, weightedJacobian, Mat.mulVec_mul,
    Mat.dot_mulVec_transpose hv, Mat.form]

theorem Fits.size_drift (h : t.Fits n) : t.drift.size = t.jacobian.rows :=
  (Vec.size_sub _ _).trans h.2.2.1

theorem Fits.over_mulVec (h : t.Fits n) (v : Vec ℝ) : t.weight.Over (t.jacobian.mulVec v) := by
  have hsize : (t.jacobian.mulVec v).size = t.jacobian.rows := Mat.size_mulVec _ _
  exact ⟨h.1.trans hsize.symm, h.2.1.trans hsize.symm⟩

theorem gradient_dot (hv : v.size = t.jacobian.cols) :
    t.gradient.dot v = 2 * (t.jacobian.mulVec v).dot (t.weight.mulVec t.drift) := by
  have htwo : t.gradient = (2 : ℝ) • t.weightedJacobian.mulVec t.drift := by
    change ((2 : ℕ) : ℝ) • _ = _
    rw [Nat.cast_ofNat]
    rfl
  have hsize : (t.weightedJacobian.mulVec t.drift).size = v.size :=
    (Mat.size_mulVec _ _).trans hv.symm
  rw [htwo, Vec.smul_dot, Vec.dot_comm hsize, weightedJacobian, Mat.mulVec_mul,
    Mat.dot_mulVec_transpose hv]

/-- The share of a task in the cost is its weighted squared error, less what it is at rest. -/
theorem cost_eq (hfits : t.Fits n) (hsymm : t.weight.IsSymmetric)
    (hv : v.size = t.jacobian.cols) :
    1 / 2 * t.hessian.form v + t.gradient.dot v =
      t.weight.form (t.accelError v) - t.weight.form t.drift := by
  have hmotion := hfits.over_mulVec v
  have hdrift : t.weight.Over t.drift :=
    ⟨hfits.1.trans hfits.size_drift.symm, hfits.2.1.trans hfits.size_drift.symm⟩
  rw [form_hessian hv, gradient_dot hv, accelError, Mat.form_add hsymm hmotion hdrift]
  ring

end TaskTerm

/-- What a decision costs: the weighted squared errors of all tasks, less what they are at rest, and
the regularization of its blocks. The loop forces do not occur in it, and each slack only where its
own family is soft. -/
noncomputable def Decision.cost (z : Decision) (settings : Settings ℝ) (robot : RobotModel ℝ)
    (terms : List (TaskTerm ℝ)) (numContacts : ℕ) : ℝ :=
  (terms.map fun t => t.weight.form (t.accelError z.accelerations)).sum
    - (terms.map fun t => t.weight.form t.drift).sum
    + settings.accelerationRegularization * z.accelerations.normSq
    + (settings.jointAccelerationCosts.entries.map fun e => (robot.jointIndex e.1).elim 0
        fun index => e.2 * z.accelerations.entry index.velocity ^ 2).sum
    + settings.inputRegularization * z.inputs.normSq
    + settings.contactForceRegularization * ∑ i ∈ Finset.range numContacts, (z.force i).normSq
    + settings.contactMode.penalty (∑ i ∈ Finset.range numContacts, (z.contactSlack i).normSq)
    + settings.loopMode.penalty z.loopSlack.normSq

/-! ### Penalties -/

section Penalty

variable {P : Mat ℝ} {x : Vec ℝ} {t : Span} {w : ℝ}

theorem adds_addPenalty (hP : P.Over x) (hfit : t.start + t.size ≤ x.size) :
    P.Adds (addPenalty P t w) x (2 * (w * t.normSq x)) := by
  rw [addPenalty, Scalar.double_real, ← mul_assoc]
  exact Mat.adds_addDiagonal hP hfit

theorem adds_addRegularization (hP : P.Over x) (hfit : t.start + t.size ≤ x.size) :
    P.Adds (addRegularization P t w) x (2 * (w * t.normSq x)) := by
  rw [addRegularization]
  split
  · rename_i hzero
    rw [Scalar.isZero_real.1 hzero, zero_mul, mul_zero]
    exact Mat.adds_zero
  · exact adds_addPenalty hP hfit

theorem adds_addSlackPenalty (mode : ConstraintMode ℝ) (hP : P.Over x)
    (hfit : t.start + t.size ≤ x.size) :
    P.Adds (TickData.addSlackPenalty P t mode) x
      (2 * mode.penalty (t.normSq x)) := by
  cases mode with
  | hard =>
    rw [ConstraintMode.penalty, mul_zero]
    exact Mat.adds_zero
  | soft weight => exact adds_addPenalty hP hfit

end Penalty

/-- The squared length of consecutive triples. -/
theorem normSq_slice_triples (x : Vec ℝ) (start n : ℕ) :
    (x.slice start (3 * n)).normSq =
      ∑ i ∈ Finset.range n, (Vec3.ofVec x (start + 3 * i)).normSq := by
  induction n with
  | zero => rfl
  | succ n ih =>
    rw [Vec.normSq_slice] at ih ⊢
    rw [Nat.mul_succ, Finset.sum_range_succ, Finset.sum_range_succ, Finset.sum_range_succ, ih,
      Finset.sum_range_succ, Vec3.normSq, Vec3.dot_eq]
    simp only [Vec3.ofVec, Nat.add_assoc]
    ring

namespace TickData

variable {d : TickData ℝ} {a : Assembler ℝ} {terms : List (TaskTerm ℝ)} {x : Vec ℝ}

/-- The penalty on one variable. -/
theorem adds_jointPenalty {P : Mat ℝ} (hP : P.Over x) {e : ℕ × ℝ} (he : e.1 < x.size) :
    P.Adds (addPenalty P (.ofSize e.1 1) e.2) x (2 * (e.2 * x.entry e.1 ^ 2)) := by
  have hsq : (Span.ofSize e.1 1).normSq x = x.entry e.1 ^ 2 := by
    rw [Span.normSq, Span.start_ofSize, Span.size_ofSize, Vec.normSq, Vec.dot_eq_sum,
      Vec.size_slice, Finset.sum_range_one, Vec.entry_slice Nat.one_pos, sq]
    rfl
  have hfit : (Span.ofSize e.1 1).start + (Span.ofSize e.1 1).size ≤ x.size := by
    rw [Span.start_ofSize, Span.size_ofSize]
    exact he
  exact hsq ▸ adds_addPenalty hP hfit

/-- The quadratic part of the cost, doubled as the Hessian has it. -/
theorem adds_hessian (hfits : a.CostFits terms (d.layout a.settings))
    (hx : x.size = (d.layout a.settings).numVariables) :
    let s := a.settings
    let l := d.layout s
    (Mat.zeros x.size x.size).Adds (d.hessian a terms) x
      ((terms.map fun t => t.hessian.form (x.slice 0 t.jacobian.cols)).sum
        + 2 * (s.accelerationRegularization * l.accelerations.normSq x)
        + (a.jointCosts.map fun e => 2 * (e.2 * x.entry e.1 ^ 2)).sum
        + 2 * (s.inputRegularization * l.inputs.normSq x)
        + 2 * (s.contactForceRegularization * l.contactForces.normSq x)
        + 2 * s.contactMode.penalty (l.contactSlack.normSq x)
        + 2 * s.loopMode.penalty (l.loopSlack.normSq x)) := by
  intro s l
  obtain ⟨hterms, hcosts, -⟩ := hfits
  have hspan {t : Span} (ht : t ∈ [l.accelerations, l.contactForces, l.loopForces, l.inputs,
      l.contactSlack, l.loopSlack]) : t.start + t.size ≤ x.size :=
    hx.symm ▸ start_add_size_le d s ht
  let zeros : Mat ℝ := .zeros x.size x.size
  have hzeros : zeros.Over x := Mat.over_zeros
  -- One step for each contribution, in the order in which they are written.
  have htasks : zeros.Adds (terms.foldl (fun P t => P.addBlock 0 0 t.hessian) zeros) x
      (terms.map fun t => t.hessian.form (x.slice 0 t.jacobian.cols)).sum :=
    Mat.adds_foldl (fun P hP t ht => Mat.adds_addBlock hP rfl
      ((hterms t ht).2.2.2.2.trans hx.ge)) hzeros
  have haccel := htasks.trans (adds_addRegularization (w := s.accelerationRegularization)
    (htasks.over hzeros) (hspan (t := l.accelerations) (by simp)))
  have hjoint (P : Mat ℝ) (hP : P.Over x) (e : ℕ × ℝ) (he : e ∈ a.jointCosts) :
      P.Adds (addPenalty P (.ofSize e.1 1) e.2) x (2 * (e.2 * x.entry e.1 ^ 2)) :=
    adds_jointPenalty hP ((hcosts e he).trans_eq hx.symm)
  have hjoints := haccel.trans (Mat.adds_foldl hjoint (haccel.over hzeros))
  have hinputs := hjoints.trans (adds_addRegularization (w := s.inputRegularization)
    (hjoints.over hzeros) (hspan (t := l.inputs) (by simp)))
  have hforces := hinputs.trans (adds_addRegularization (w := s.contactForceRegularization)
    (hinputs.over hzeros) (hspan (t := l.contactForces) (by simp)))
  have hcontact := hforces.trans (adds_addSlackPenalty s.contactMode (hforces.over hzeros)
    (hspan (t := l.contactSlack) (by simp)))
  have hloop := hcontact.trans (adds_addSlackPenalty s.loopMode (hcontact.over hzeros)
    (hspan (t := l.loopSlack) (by simp)))
  rw [hessian, ← hx]
  exact hloop

/-- The gradients of tasks, added at the front of a vector one after the other. -/
theorem dot_foldl_addAt {q : Vec ℝ} (hterms : ∀ t ∈ terms, t.Fits q.size) :
    (terms.foldl (fun q t => q.addAt 0 t.gradient) q).dot x =
      q.dot x + (terms.map fun t => t.gradient.dot (x.slice 0 t.jacobian.cols)).sum := by
  induction terms generalizing q with
  | nil => exact (add_zero _).symm
  | cons t rest ih =>
    obtain ⟨ht, hrest⟩ := List.forall_mem_cons.1 hterms
    have hsize : t.gradient.size = t.jacobian.cols :=
      (Vec.size_smul _ _).trans (Mat.size_mulVec _ _)
    have hfit : 0 + t.gradient.size ≤ q.size := by
      rw [hsize, Nat.zero_add]
      exact ht.2.2.2.2
    rw [← Vec.size_addAt q 0 t.gradient] at hrest
    rw [List.foldl_cons, ih hrest, Vec.dot_addAt hfit, hsize, List.map_cons, List.sum_cons,
      add_assoc]

theorem gradient_dot (hfits : a.CostFits terms (d.layout a.settings)) :
    (d.gradient a.settings terms).dot x =
      (terms.map fun t => t.gradient.dot (x.slice 0 t.jacobian.cols)).sum := by
  have hterms := hfits.1
  rw [← Vec.size_zeros (α := ℝ) (d.layout a.settings).numVariables] at hterms
  rw [gradient, dot_foldl_addAt hterms, Vec.zeros_dot, zero_add]

/-- The cost of the program of a tick: the shares of the tasks and the penalties. -/
theorem cost_program_eq_shares (hfits : a.CostFits terms (d.layout a.settings))
    (hx : x.size = (d.layout a.settings).numVariables) :
    let s := a.settings
    let l := d.layout s
    (d.program a terms).cost x =
      (1 / 2 * (terms.map fun t => t.hessian.form (x.slice 0 t.jacobian.cols)).sum
        + (terms.map fun t => t.gradient.dot (x.slice 0 t.jacobian.cols)).sum)
        + s.accelerationRegularization * l.accelerations.normSq x
        + (a.jointCosts.map fun e => e.2 * x.entry e.1 ^ 2).sum
        + s.inputRegularization * l.inputs.normSq x
        + s.contactForceRegularization * l.contactForces.normSq x
        + s.contactMode.penalty (l.contactSlack.normSq x)
        + s.loopMode.penalty (l.loopSlack.normSq x) := by
  intro s l
  have hcost : (d.program a terms).cost x =
      1 / 2 * (d.hessian a terms).form x + (d.gradient s terms).dot x := by
    rw [ConeProgram.cost, Scalar.half_real]
    rfl
  have hjoints : (a.jointCosts.map fun e => 2 * (e.2 * x.entry e.1 ^ 2)).sum =
      2 * (a.jointCosts.map fun e => e.2 * x.entry e.1 ^ 2).sum := List.sum_map_mul_left _ _ _
  rw [hcost, (adds_hessian hfits hx).form, Mat.form_zeros, gradient_dot hfits, hjoints]
  ring

/-- The cost of the program of a tick, with the shares of the tasks as squares. -/
theorem cost_program (hfits : a.CostFits terms (d.layout a.settings))
    (hsymm : ∀ t ∈ terms, t.weight.IsSymmetric)
    (hx : x.size = (d.layout a.settings).numVariables) :
    let s := a.settings
    let l := d.layout s
    (d.program a terms).cost x =
      (terms.map fun t => t.weight.form (t.accelError (x.slice 0 t.jacobian.cols))).sum
        - (terms.map fun t => t.weight.form t.drift).sum
        + s.accelerationRegularization * l.accelerations.normSq x
        + (a.jointCosts.map fun e => e.2 * x.entry e.1 ^ 2).sum
        + s.inputRegularization * l.inputs.normSq x
        + s.contactForceRegularization * l.contactForces.normSq x
        + s.contactMode.penalty (l.contactSlack.normSq x)
        + s.loopMode.penalty (l.loopSlack.normSq x) := by
  intro s l
  have hshares : 1 / 2 * (terms.map fun t => t.hessian.form (x.slice 0 t.jacobian.cols)).sum
      + (terms.map fun t => t.gradient.dot (x.slice 0 t.jacobian.cols)).sum =
      (terms.map fun t => t.weight.form (t.accelError (x.slice 0 t.jacobian.cols))).sum
        - (terms.map fun t => t.weight.form t.drift).sum := by
    rw [eq_sub_iff_add_eq, ← List.sum_map_mul_left, ← List.sum_map_add, ← List.sum_map_add]
    congr 1
    refine List.map_congr_left fun t ht => ?_
    rw [TaskTerm.cost_eq (hfits.1 t ht) (hsymm t ht) (Vec.size_slice _ _ _), sub_add_cancel]
  rw [cost_program_eq_shares hfits hx, hshares]

/-- No point costs less than all tasks without an error would. -/
theorem neg_drift_le_cost_program (hs : a.settings.Valid) (hcosts : ∀ c ∈ a.jointCosts, 0 ≤ c.2)
    (hweights : ∀ t ∈ terms, t.weight.IsPosSemidef)
    (hfits : a.CostFits terms (d.layout a.settings))
    (hx : x.size = (d.layout a.settings).numVariables) :
    -(terms.map fun t => t.weight.form t.drift).sum ≤ (d.program a terms).cost x := by
  have herrors : 0 ≤ (terms.map fun t =>
      t.weight.form (t.accelError (x.slice 0 t.jacobian.cols))).sum := by
    refine List.sum_nonneg (List.forall_mem_map.2 fun t ht => (hweights t ht).2 _ ?_)
    have hover := (hfits.1 t ht).over_mulVec (x.slice 0 t.jacobian.cols)
    rwa [Mat.Over, TaskTerm.accelError, Vec.size_add]
  have hjoints : 0 ≤ (a.jointCosts.map fun c => c.2 * x.entry c.1 ^ 2).sum :=
    List.sum_nonneg (List.forall_mem_map.2 fun c hc => mul_nonneg (hcosts c hc) (sq_nonneg _))
  obtain ⟨haccel, hinput, hforce, hcontact, hloop⟩ :=
    hs.penalties_nonneg (d.layout a.settings) x
  rw [cost_program hfits (fun t ht => (hweights t ht).1) hx]
  linarith

end TickData

/-! ### Programs that are built -/

/-- The joint costs of an assembler, in terms of the settings and the joints of the robot. -/
theorem Assembler.sum_jointCosts {settings : Settings ℝ} {robot : RobotModel ℝ} {a : Assembler ℝ}
    (h : Assembler.create settings robot = .ok a) (f : ℕ → ℝ → ℝ) :
    (a.jointCosts.map fun c => f c.1 c.2).sum =
      (settings.jointAccelerationCosts.entries.map fun e =>
        (robot.jointIndex e.1).elim 0 fun index => f index.velocity e.2).sum := by
  obtain ⟨-, hcosts⟩ := of_create_eq_ok h
  generalize settings.jointAccelerationCosts.entries = entries, a.jointCosts = costs at hcosts
  induction hcosts with
  | nil => rfl
  | cons hc _ ih =>
    obtain ⟨index, hindex, rfl⟩ := hc
    rw [List.map_cons, List.map_cons, List.sum_cons, List.sum_cons, ih, hindex, Option.elim_some]

/-- The entries of a vector beyond the columns of a matrix do not matter. -/
theorem Mat.mulVec_slice {m : Mat ℝ} {x : Vec ℝ} {n : ℕ} (h : m.cols ≤ n) :
    m.mulVec (x.slice 0 n) = m.mulVec (x.slice 0 m.cols) := by
  refine Vec.ext_entry (by rw [size_mulVec, size_mulVec]) fun i _ => ?_
  rw [entry_mulVec, entry_mulVec]
  refine Finset.sum_congr rfl fun j hj => ?_
  have hj' := Finset.mem_range.1 hj
  rw [Vec.entry_slice hj', Vec.entry_slice (hj'.trans_le h)]

namespace TickData

variable {d : TickData ℝ} {s : Settings ℝ} {x : Vec ℝ}

theorem split_accelerations :
    ((d.layout s).split x).accelerations = x.slice 0 d.numVelocities := by
  simp only [VariableLayout.split, layout_accelerations]
  rfl

/-- The contact forces together are as long as all of them one by one. -/
theorem normSq_contactForces : (d.layout s).contactForces.normSq x =
    ∑ i ∈ Finset.range d.contacts.length, (((d.layout s).split x).force i).normSq := by
  simp only [Span.normSq, VariableLayout.split, layout_contactForces, layout_contact, Span.size,
    Nat.add_sub_cancel_left, normSq_slice_triples]

theorem penalty_contactSlack : s.contactMode.penalty ((d.layout s).contactSlack.normSq x) =
    s.contactMode.penalty (∑ i ∈ Finset.range d.contacts.length,
      (((d.layout s).split x).contactSlack i).normSq) := by
  cases hmode : s.contactMode with
  | hard => rfl
  | soft w =>
    simp only [Span.normSq, VariableLayout.split, layout_contactSlack, hmode,
      ConstraintMode.slackRows, Span.size, Nat.add_sub_cancel_left, normSq_slice_triples]

end TickData

/-- The cost of a point for a program that was built is the cost of its blocks, provided that the
Jacobians of the tasks act on the accelerations and the joints are among them. -/
theorem cost_eq_squares {settings : Settings ℝ} {robot model : RobotModel ℝ} {a : Assembler ℝ}
    (hcreate : Assembler.create settings robot = .ok a) {state : RobotState ℝ}
    {terms : List (TaskTerm ℝ)} {contacts : List (ContactPoint ℝ)} {p : ConeProgram ℝ}
    (hbuild : a.build model state terms contacts = .ok p)
    (hcols : ∀ t ∈ terms, t.jacobian.cols ≤ model.numVelocities)
    (hsymm : ∀ t ∈ terms, t.weight.IsSymmetric)
    (hjoints : ∀ e ∈ settings.jointAccelerationCosts.entries, ∀ index ∈ robot.jointIndex e.1,
      index.velocity < model.numVelocities)
    {x : Vec ℝ} (hx : x.size = p.numVariables) :
    p.cost x = (p.layout.split x).cost settings robot terms contacts.length := by
  obtain ⟨d, hd, hfits, -, -, rfl⟩ := Assembler.of_build_eq_ok hbuild
  obtain ⟨hanswers, hshaped⟩ := TickData.of_gather_eq_ok hd
  have hjointCosts := Assembler.sum_jointCosts hcreate fun i w => w * x.entry i ^ 2
  obtain ⟨rfl, -⟩ := Assembler.of_create_eq_ok hcreate
  let z := (d.layout a.settings).split x
  have hn := hx.trans (TickData.numVariables_program a terms)
  have hlength : contacts.length = d.contacts.length := hanswers.contacts.length_eq
  have haccel : z.accelerations = x.slice 0 model.numVelocities := by
    rw [← hshaped.numVelocities_eq]
    exact TickData.split_accelerations
  have herror : ∀ t ∈ terms, t.weight.form (t.accelError (x.slice 0 t.jacobian.cols)) =
      t.weight.form (t.accelError z.accelerations) := by
    intro t ht
    rw [haccel, TaskTerm.accelError, TaskTerm.accelError, Mat.mulVec_slice (hcols t ht)]
  have hvelocities : ∀ e ∈ a.settings.jointAccelerationCosts.entries,
      ((robot.jointIndex e.1).elim 0 fun index => e.2 * x.entry index.velocity ^ 2) =
        (robot.jointIndex e.1).elim 0
          fun index => e.2 * z.accelerations.entry index.velocity ^ 2 := by
    intro e he
    cases hindex : robot.jointIndex e.1 with
    | none => rfl
    | some index =>
      have hlt := hjoints e he index hindex
      rw [Option.elim_some, Option.elim_some, haccel, Vec.entry_slice hlt, Nat.zero_add]
  rw [TickData.cost_program hfits hsymm hn, hjointCosts, List.map_congr_left herror,
    List.map_congr_left hvelocities, TickData.normSq_contactForces, TickData.penalty_contactSlack,
    hlength]
  rfl

/-- A point mass on one foot that should rise, with an extra cost on its vertical acceleration. -/
theorem cost_eq_squares_pointMass :
    let r : PointMass ℝ := ⟨"mass", 1, 10⟩
    let robot : RobotModel ℝ := { r.model with jointIndex := fun _ => some ⟨2, 2⟩ }
    let settings : Settings ℝ :=
      { Settings.standard with jointAccelerationCosts := SortedMap.empty.insert "lift" 3 }
    let state : RobotState ℝ := ⟨.zeros 3, .zeros 3⟩
    let foot : ContactPoint ℝ := ⟨"foot", ⟨"mass", 0⟩, .unitZ, none, none⟩
    let rise : TaskTerm ℝ :=
      ⟨"rise", .identity 3, .zeros 3, .ofList [0, 0, 1], .identity 3, .zeros 3⟩
    let x : Vec ℝ := .replicate 9 1
    ∃ a p, Assembler.create settings robot = .ok a ∧
      a.build r.model state [rise] [foot] = .ok p ∧
      p.cost x = (p.layout.split x).cost settings robot [rise] 1 := by
  intro r robot settings state foot rise x
  let a : Assembler ℝ := ⟨settings, [(2, 3)]⟩
  have hcreate : Assembler.create settings robot = .ok a := rfl
  have hterms : ∀ t ∈ [rise], t.Fits 3 := List.forall_mem_singleton.2 ⟨rfl, rfl, rfl, rfl, le_rfl⟩
  have hcosts : ∀ e ∈ a.jointCosts, e.1 < 3 := List.forall_mem_singleton.2 (by decide)
  have hbuild : a.build r.model state [rise] [foot] =
      .ok ((r.tickData state [foot]).program a [rise]) :=
    PointMass.build_eq_ok ⟨rfl, rfl⟩ (List.forall_mem_singleton.2 rfl) hterms hcosts
  have hsymm : ∀ t ∈ [rise], t.weight.IsSymmetric :=
    List.forall_mem_singleton.2 (Mat.isSymmetric_identity 3)
  have hjoints : ∀ e ∈ settings.jointAccelerationCosts.entries, ∀ index ∈ robot.jointIndex e.1,
      index.velocity < r.model.numVelocities := by
    intro e _ index hindex
    cases hindex
    decide
  have hn : ((r.tickData state [foot]).program a [rise]).numVariables = 9 :=
    TickData.numVariables_program a [rise]
  have hsize : x.size = ((r.tickData state [foot]).program a [rise]).numVariables :=
    (Vec.size_replicate 9 1).trans hn.symm
  exact ⟨a, _, hcreate, hbuild, cost_eq_squares hcreate hbuild
    (List.forall_mem_singleton.2 le_rfl) hsymm hjoints hsize⟩

end WholeBody
