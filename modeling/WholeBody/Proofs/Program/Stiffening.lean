import Mathlib
import WholeBody.Proofs.Program.Convexity
import WholeBody.Proofs.Program.Relaxing
import WholeBody.Proofs.Robot.Standing
import WholeBody.Proofs.Tracking.Joints
import WholeBody.Proofs.Validation

/-!
# Stiffening a family

The weight of a soft family enters the program of a tick in one place only, the price of its slack.
So programs that differ in this weight have the same feasible points, and each minimizer competes
with the other: the one that pays more for slack has no more of it, and no less of all other costs.

## Main statements

* `ConeProgram.IsMinimizer.exchange` — minimizers for two weights of one penalty.
* `TickData.feasible_withMode_soft_iff`, `TickData.cost_withMode_soft` — where a weight enters.
* `slack_le_of_stiffer` — the two programs of one tick.
* `PointMass.isMinimizer_softFoot` — how far a soft foot lets a mass rise.
-/

namespace WholeBody

open Controller (block)

/-! ### Two weights of one penalty -/

/-- Two programs with the same feasible points and the same costs, up to the weight of a penalty. The
minimizer for the larger weight has no more of the penalty, and no less of the rest. -/
theorem ConeProgram.IsMinimizer.exchange {p₁ p₂ : ConeProgram ℝ} {x₁ x₂ : Vec ℝ}
    (h₁ : p₁.IsMinimizer x₁) (h₂ : p₂.IsMinimizer x₂) (hn : p₁.numVariables = p₂.numVariables)
    (hfeasible : ∀ x, p₁.Feasible x ↔ p₂.Feasible x) {w₁ w₂ : ℝ} (hw₁ : 0 ≤ w₁) (hw : w₁ < w₂)
    (penalty : Vec ℝ → ℝ)
    (hrest : ∀ x : Vec ℝ, x.size = p₁.numVariables →
      p₁.cost x - w₁ * penalty x = p₂.cost x - w₂ * penalty x) :
    penalty x₂ ≤ penalty x₁ ∧ p₁.cost x₁ - w₁ * penalty x₁ ≤ p₂.cost x₂ - w₂ * penalty x₂ := by
  have hsize₂ : x₂.size = p₁.numVariables := h₂.size.trans hn.symm
  have hle₁ := h₁.least x₂ hsize₂ ((hfeasible x₂).2 h₂.feasible)
  have hle₂ := h₂.least x₁ (h₁.size.trans hn) ((hfeasible x₁).1 h₁.feasible)
  have hrest₁ := hrest x₁ h₁.size
  have hrest₂ := hrest x₂ hsize₂
  have hpenalty : penalty x₂ ≤ penalty x₁ := by
    have hgap : (w₂ - w₁) * penalty x₂ ≤ (w₂ - w₁) * penalty x₁ := by linarith
    exact le_of_mul_le_mul_left hgap (sub_pos.2 hw)
  have hweighted := mul_le_mul_of_nonneg_left hpenalty hw₁
  exact ⟨hpenalty, by linarith⟩

/-! ### The weight of a family -/

theorem Settings.Valid.weight_pos {s : Settings ℝ} {f : Family} {w : ℝ}
    (h : (s.withMode (.soft w) f).Valid) : 0 < w := by
  cases f with
  | contacts => exact Scalar.isPositive_real.1 (h.contactMode w rfl)
  | loops => exact Scalar.isPositive_real.1 (h.loopMode w rfl)

namespace TickData

variable {d : TickData ℝ} {s : Settings ℝ} {f : Family} {jointCosts : List (ℕ × ℝ)}
  {terms : List (TaskTerm ℝ)} {x : Vec ℝ}

/-- The weight does not decide which variables there are. -/
theorem layout_withMode_soft (w w' : ℝ) :
    d.layout (s.withMode (.soft w) f) = d.layout (s.withMode (.soft w') f) := by
  cases f <;> rfl

/-- The weight is in none of the constraints. -/
theorem constraints_withMode_soft (w w' : ℝ) :
    d.constraints (s.withMode (.soft w) f) = d.constraints (s.withMode (.soft w') f) := by
  cases f <;> rfl

theorem feasible_withMode_soft_iff (w w' : ℝ) :
    (d.program ⟨s.withMode (.soft w) f, jointCosts⟩ terms).Feasible x ↔
      (d.program ⟨s.withMode (.soft w') f, jointCosts⟩ terms).Feasible x := by
  simp only [ConeProgram.Feasible, ConeProgram.residual, program, constraints_withMode_soft w w']

/-- The slack of a family is paid by its weight. -/
theorem cost_withMode_soft {w : ℝ} (w' : ℝ)
    (hfits : (⟨s.withMode (.soft w) f, jointCosts⟩ : Assembler ℝ).CostFits terms
      (d.layout (s.withMode (.soft w) f)))
    (hx : x.size = (d.layout (s.withMode (.soft w) f)).numVariables) :
    let slack := d.softSlack s f
    (d.program ⟨s.withMode (.soft w) f, jointCosts⟩ terms).cost x - w * slack.normSq x =
      (d.program ⟨s.withMode (.soft w') f, jointCosts⟩ terms).cost x - w' * slack.normSq x := by
  have hfits' : (⟨s.withMode (.soft w') f, jointCosts⟩ : Assembler ℝ).CostFits terms
      (d.layout (s.withMode (.soft w') f)) := by
    rw [← layout_withMode_soft w w']
    exact hfits
  have hx' : x.size = (d.layout (s.withMode (.soft w') f)).numVariables := by
    rwa [← layout_withMode_soft w w']
  intro slack
  rw [cost_program_eq_shares hfits hx, cost_program_eq_shares hfits' hx',
    layout_withMode_soft w w']
  simp only [slack, ← slack_layout_soft (w := w')]
  cases f <;> simp only [fields_withMode, VariableLayout.slack, ConstraintMode.penalty,
    contactMode_withMode_contacts, loopMode_withMode_contacts, contactMode_withMode_loops,
    loopMode_withMode_loops] <;> ring

end TickData

/-- Two builds of one tick whose settings differ in the weight of one soft family. The programs have
the same variables and the same feasible points, at which the slack of the family is what is left of
its rows, and apart from the price of this slack they have the same cost. A minimizer for the larger
weight has no more slack than one for the smaller weight, and no less of the rest of the cost. -/
theorem slack_le_of_stiffer {settings : Settings ℝ} {f : Family} {w₁ w₂ : ℝ} (hw : w₁ < w₂)
    (hsettings : (settings.withMode (.soft w₁) f).validate = .ok ()) {robot model : RobotModel ℝ}
    {a₁ a₂ : Assembler ℝ}
    (hcreate₁ : Assembler.create (settings.withMode (.soft w₁) f) robot = .ok a₁)
    (hcreate₂ : Assembler.create (settings.withMode (.soft w₂) f) robot = .ok a₂)
    {state : RobotState ℝ} {terms : List (TaskTerm ℝ)} {contacts : List (ContactPoint ℝ)}
    {p₁ p₂ : ConeProgram ℝ} (hbuild₁ : a₁.build model state terms contacts = .ok p₁)
    (hbuild₂ : a₂.build model state terms contacts = .ok p₂) :
    ∃ d : TickData ℝ, d.Answers model state contacts ∧ p₁.layout = p₂.layout ∧
      let slack := p₁.layout.slack f
      p₁.numVariables = p₂.numVariables ∧ (∀ x, p₁.Feasible x ↔ p₂.Feasible x) ∧
      (∀ x, p₁.Feasible x → block x slack = d.residual f (block x p₁.layout.accelerations)) ∧
      (∀ x : Vec ℝ, x.size = p₁.numVariables →
        p₁.cost x - w₁ * slack.normSq x = p₂.cost x - w₂ * slack.normSq x) ∧
      ∀ x₁ x₂ : Vec ℝ, p₁.IsMinimizer x₁ → p₂.IsMinimizer x₂ →
        slack.normSq x₂ ≤ slack.normSq x₁ ∧
        p₁.cost x₁ - w₁ * slack.normSq x₁ ≤ p₂.cost x₂ - w₂ * slack.normSq x₂ := by
  have hw₁ : 0 < w₁ := (Settings.validate_eq_ok_iff.1 hsettings).weight_pos
  obtain ⟨ha₁, hcreate⟩ := Assembler.of_create_withMode hcreate₁
  obtain rfl : _ = a₂ := Except.ok.inj ((hcreate (.soft w₂)).symm.trans hcreate₂)
  rw [ha₁] at hbuild₁
  obtain ⟨d, hd, hfits, -, -, rfl⟩ := Assembler.of_build_eq_ok hbuild₁
  obtain ⟨d', hd', -, -, -, rfl⟩ := Assembler.of_build_eq_ok hbuild₂
  obtain rfl : d = d' := Except.ok.inj (hd.symm.trans hd')
  obtain ⟨hanswers, hshaped⟩ := TickData.of_gather_eq_ok hd
  let p (w : ℝ) := d.program ⟨settings.withMode (.soft w) f, a₁.jointCosts⟩ terms
  have hsize (w : ℝ) : (p w).numVariables = (p w).layout.numVariables :=
    TickData.numVariables_program _ terms
  have hlayout : (p w₁).layout = (p w₂).layout := TickData.layout_withMode_soft w₁ w₂
  have hn : (p w₁).numVariables = (p w₂).numVariables := by rw [hsize, hsize, hlayout]
  have hslack : (p w₁).layout.slack f = d.softSlack settings f := TickData.slack_layout_soft
  have hfeasible (x : Vec ℝ) : (p w₁).Feasible x ↔ (p w₂).Feasible x :=
    TickData.feasible_withMode_soft_iff w₁ w₂
  have hrest (x : Vec ℝ) (hx : x.size = (p w₁).numVariables) :=
    TickData.cost_withMode_soft w₂ hfits (hx.trans (hsize w₁))
  refine ⟨d, hanswers, hlayout, ?_⟩
  rw [hslack]
  exact ⟨hn, hfeasible, fun x hx => TickData.block_softSlack_eq hshaped hx, hrest,
    fun x₁ x₂ h₁ h₂ => h₁.exchange h₂ hn hfeasible hw₁.le hw _ hrest⟩

/-! ### A point mass on a soft foot -/

namespace PointMass

section SoftFoot

open Finset

variable {r : PointMass ℝ} {state : RobotState ℝ} {foot : ContactPoint ℝ} {a : Assembler ℝ}
  {task : TaskTerm ℝ} {w c : ℝ} (hmode : a.settings.contactMode = .soft w)
  (hforces : a.settings.contactForceRegularization = 0) (hjoints : a.jointCosts = [])
  (hfits : task.Fits 3) (htask : task.Single 3 2 1 c)

include hmode hforces hjoints hfits htask

/-- The slack of a soft foot is as large as the acceleration, so its weight adds to that of the
regularization. -/
theorem cost_softFoot {y : Vec ℝ}
    (hy : y.size = ((r.tickData state [foot]).layout a.settings).numVariables)
    (hmeets : (r.tickData state [foot]).Meets a.settings
      (((r.tickData state [foot]).layout a.settings).split y)) :
    ((r.tickData state [foot]).program a [task]).cost y =
      y.entry 2 ^ 2 - 2 * c * y.entry 2 + (a.settings.accelerationRegularization + w) *
        (y.entry 0 ^ 2 + y.entry 1 ^ 2 + y.entry 2 ^ 2) := by
  let d := r.tickData state [foot]
  let l := d.layout a.settings
  have haccel : l.accelerations.normSq y = y.entry 0 ^ 2 + y.entry 1 ^ 2 + y.entry 2 ^ 2 := by
    have hslice : l.accelerations.normSq y = (y.slice 0 3).normSq := rfl
    simp [hslice, Vec.normSq_slice, sum_range_succ]
  have hslack : ∀ k < 3, ((l.split y).contactSlack 0).component k = y.entry k := by
    intro k hk
    have hslip := hmeets.noSlip ((foot, kinematics state), 0) List.mem_cons_self k hk
    have hcolumn : (l.split y).accelerations.entry k = y.entry k :=
      (congrArg (Vec.entry · k) TickData.split_accelerations).trans
        ((Vec.entry_slice hk).trans (congrArg _ (Nat.zero_add k)))
    have hstill : (kinematics state).jdotV.component k = 0 := Vec3.component_zero k
    rw [hmode, mulVec_jacobian _ hk, hcolumn, hstill, add_zero] at hslip
    exact hslip.symm
  have hpenalty : a.settings.contactMode.penalty (l.contactSlack.normSq y) =
      w * (y.entry 0 ^ 2 + y.entry 1 ^ 2 + y.entry 2 ^ 2) := by
    have hlength : d.contacts.length = 1 := rfl
    have hnormSq : ((l.split y).contactSlack 0).normSq =
        y.entry 0 ^ 2 + y.entry 1 ^ 2 + y.entry 2 ^ 2 := by
      rw [Vec3.normSq, ← Vec3.sum_component]
      simp [sum_range_succ, hslack, sq]
    rw [TickData.penalty_contactSlack, hmode, ConstraintMode.penalty, hlength, sum_range_one]
    exact congrArg (w * ·) hnormSq
  have hinputs : l.inputs.normSq y = 0 := by
    rw [Span.normSq, TickData.size_inputs, Vec.normSq_slice]
    rfl
  have hloops : a.settings.loopMode.penalty (l.loopSlack.normSq y) = 0 := by
    rw [Span.normSq, TickData.size_loopSlack, Vec.normSq_slice]
    cases a.settings.loopMode with
    | hard => rfl
    | soft w' => exact mul_zero w'
  have hcols : task.jacobian.cols = 3 := by rw [htask.jacobian, Mat.cols_ofFn]
  have hshare := htask.share (v := y.slice 0 3) (by decide)
  rw [Vec.entry_slice (by decide)] at hshare
  rw [TickData.cost_program (d.costFits a (List.forall_mem_singleton.2 hfits) (by simp [hjoints]))
    (List.forall_mem_singleton.2 htask.size_weight.isSymmetric) hy, haccel, hpenalty, hinputs,
    hloops, hforces, hjoints]
  simp only [List.map_cons, List.map_nil, List.sum_cons, List.sum_nil, hcols]
  linarith

/-- A mass that is asked to rise does so as far as the price of the slack lets it. -/
theorem isMinimizer_softFoot (hw : 0 ≤ a.settings.accelerationRegularization + w)
    (hstate : state.q.size = 3 ∧ state.v.size = 3) (hbody : foot.point.body = r.body)
    {accel : ℝ} (haccel : c = (1 + a.settings.accelerationRegularization + w) * accel)
    {shares : ℕ → ℝ} (hmeets : (r.tickData state [foot]).Meets a.settings (rise accel shares)) :
    let d := r.tickData state [foot]
    (d.program a [task]).IsMinimizer ((d.layout a.settings).join (rise accel shares)) := by
  intro d
  let x := (d.layout a.settings).join (rise accel shares)
  have hshaped := (TickData.of_gather_eq_ok
    (gather_eq_ok hstate (List.forall_mem_singleton.2 hbody))).2
  have hn := TickData.numVariables_program (d := d) a [task]
  have hx : x.size = (d.layout a.settings).numVariables := Vec.size_ofFn _ _
  have hentry : ∀ k < 3, x.entry k = (⟨0, 0, accel⟩ : Vec3 ℝ).component k := by
    intro k hk
    rw [← Vec3.entry_toVec]
    exact TickData.entry_join_accelerations hk
  have hxmeets := hmeets.split_join (s := a.settings) sized_rise
  refine ⟨hx.trans hn.symm, (TickData.feasible_program_iff hshaped a [task]).2 hxmeets,
    fun y hy hyfeasible => ?_⟩
  have hymeets := (TickData.feasible_program_iff hshaped a [task]).1 hyfeasible
  rw [cost_softFoot hmode hforces hjoints hfits htask hx hxmeets,
    cost_softFoot hmode hforces hjoints hfits htask (hy.trans hn) hymeets, hentry 0 (by decide),
    hentry 1 (by decide), hentry 2 (by decide), haccel]
  simp only [Vec3.component]
  have hgap : 0 ≤ (a.settings.accelerationRegularization + w) * (y.entry 0 ^ 2 + y.entry 1 ^ 2)
      + (1 + (a.settings.accelerationRegularization + w)) * (y.entry 2 - accel) ^ 2 := by
    positivity
  refine le_of_sub_nonneg (hgap.trans_eq ?_)
  ring

end SoftFoot

end PointMass

/-- A point mass on one foot that is asked to rise with the acceleration one. With twice the weight
for the slack of the foot it rises by a quarter, and not by a third. -/
theorem slack_le_of_stiffer_pointMass :
    let r : PointMass ℝ := ⟨"mass", 1, 10⟩
    let settings : Settings ℝ := { Settings.standard with accelerationRegularization := 1 }
    let state : RobotState ℝ := ⟨.zeros 3, .zeros 3⟩
    let foot : ContactPoint ℝ := ⟨"foot", ⟨"mass", 0⟩, .unitZ, none, none⟩
    let task : TaskTerm ℝ := ⟨"rise", .ofFn 1 3 fun _ i => if i = 2 then 1 else 0, .zeros 1,
      .ofList [1], .identity 1, .zeros 1⟩
    ∃ a₁ a₂ p₁ p₂ x₁ x₂,
      Assembler.create (settings.withMode (.soft 1) .contacts) r.model = .ok a₁ ∧
      Assembler.create (settings.withMode (.soft 2) .contacts) r.model = .ok a₂ ∧
      a₁.build r.model state [task] [foot] = .ok p₁ ∧
      a₂.build r.model state [task] [foot] = .ok p₂ ∧
      (p₁.IsMinimizer x₁ ∧ x₁.entry 2 = 1 / 3) ∧ (p₂.IsMinimizer x₂ ∧ x₂.entry 2 = 1 / 4) ∧
      let slack := p₁.layout.slack .contacts
      slack.normSq x₂ ≤ slack.normSq x₁ ∧
      p₁.cost x₁ - 1 * slack.normSq x₁ ≤ p₂.cost x₂ - 2 * slack.normSq x₂ := by
  intro r settings state foot task
  let a (w : ℝ) : Assembler ℝ := ⟨settings.withMode (.soft w) .contacts, []⟩
  let d := r.tickData state [foot]
  let x (w accel : ℝ) := (d.layout (a w).settings).join (PointMass.rise accel fun _ => accel + 10)
  have hcreate (w : ℝ) :
      Assembler.create (settings.withMode (.soft w) .contacts) r.model = .ok (a w) := rfl
  have hfits : task.Fits 3 := ⟨rfl, rfl, rfl, rfl, le_rfl⟩
  have hbuild (w : ℝ) : (a w).build r.model state [task] [foot] =
      .ok (d.program (a w) [task]) :=
    PointMass.build_eq_ok ⟨rfl, rfl⟩ (List.forall_mem_singleton.2 rfl)
      (List.forall_mem_singleton.2 hfits) (List.forall_mem_nil _)
  have htask : task.Single 3 2 1 1 :=
    ⟨rfl, rfl, (zero_sub 1).trans rfl, ⟨rfl, rfl⟩, by simp [task, Mat.identity, Mat.diagonal]⟩
  have hvalid : (settings.withMode (.soft 1) .contacts).validate = .ok () := by
    have hone : Scalar.IsPositive (1 : ℝ) := Scalar.isPositive_real.2 one_pos
    refine Settings.validate_eq_ok_iff.2 { Settings.valid_standard with
      accelerationRegularization := hone, contactMode := ?_ }
    rintro _ ⟨⟩
    exact hone
  have hminimizer {w accel : ℝ} (hw : 0 ≤ w) (haccel : 1 = (1 + 1 + w) * accel)
      (hup : 0 ≤ accel) : (d.program (a w) [task]).IsMinimizer (x w accel) := by
    refine PointMass.isMinimizer_softFoot rfl rfl rfl hfits htask (add_nonneg zero_le_one hw)
      ⟨rfl, rfl⟩ rfl haccel (PointMass.meets_rise (List.forall_mem_singleton.2 rfl)
        (List.forall_mem_singleton.2 Settings.valid_standard.defaultCone) le_rfl
        (fun _ _ => add_nonneg hup (by norm_num)) ?_ rfl)
    simp [r]
  have hentry (w accel : ℝ) : (x w accel).entry 2 = accel :=
    TickData.entry_join_accelerations (by decide)
  have h₁ := hminimizer zero_le_one (by norm_num : (1 : ℝ) = (1 + 1 + 1) * (1 / 3)) (by norm_num)
  have h₂ := hminimizer zero_le_two (by norm_num : (1 : ℝ) = (1 + 1 + 2) * (1 / 4)) (by norm_num)
  obtain ⟨-, -, -, -, -, -, -, hstiffer⟩ :=
    slack_le_of_stiffer one_lt_two hvalid (hcreate 1) (hcreate 2) (hbuild 1) (hbuild 2)
  exact ⟨a 1, a 2, _, _, _, _, hcreate 1, hcreate 2, hbuild 1, hbuild 2, ⟨h₁, hentry 1 _⟩,
    ⟨h₂, hentry 2 _⟩, hstiffer _ _ h₁ h₂⟩

end WholeBody
