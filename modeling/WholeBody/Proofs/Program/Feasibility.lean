import Mathlib
import WholeBody.Proofs.Contact.FrictionCone
import WholeBody.Proofs.Program.Rows
import WholeBody.Proofs.Program.Stack
import WholeBody.Proofs.Robot.PointMass

/-!
# What a feasible point means

A point is feasible for the program of a tick exactly when its blocks obey the equations of motion,
keep contacts and loops closed up to the slack that the modes allow, push with at least the normal
force that is asked for, stay in the friction cones and respect the effort limits.

## Main statements

* `TickData.feasible_program_iff` — feasibility in terms of the answers of the robot.
* `feasible_iff_meets` — the same of every program that is built.
-/

namespace WholeBody

/-- How far a row of a family may be off: not at all when it is hard, by its slack when it is
soft. -/
def ConstraintMode.slack : ConstraintMode ℝ → ℝ → ℝ
  | hard, _ => 0
  | soft _, slack => slack

namespace TickData

/-- A decision that the robot can carry out: the physical meaning of the constraints of a tick. -/
structure Meets (d : TickData ℝ) (s : Settings ℝ) (z : Decision) : Prop where
  /-- `M v̇ + c = B u + Σ Jᵢᵀ λᵢ + J_hᵀ λ_h`. -/
  dynamics : ∀ k < d.numVelocities,
    (d.massMatrix.mulVec z.accelerations).entry k + d.bias.entry k =
      (d.actuation.mulVec z.inputs).entry k + d.contactTorque z k + d.loopTorque z k
  /-- `Jᵢ v̇ + J̇ᵢ v = sᵢ`. -/
  noSlip : ∀ e ∈ d.numbered, ∀ k < 3,
    (e.1.2.jacobian.toMat.mulVec z.accelerations).entry k + e.1.2.jdotV.component k =
      s.contactMode.slack ((z.contactSlack e.2).component k)
  /-- `J_h v̇ + J̇_h v = s_h`. -/
  closedLoops : ∀ loops ∈ d.loops, ∀ k < loops.jacobian.rows,
    (loops.jacobian.mulVec z.accelerations).entry k + loops.jdotV.entry k =
      s.loopMode.slack (z.loopSlack.entry k)
  leastNormal : ∀ e ∈ d.numbered, s.minNormalForce ≤ e.1.1.frame.normal.dot (z.force e.2)
  friction : ∀ e ∈ d.numbered, (e.1.1.coneOr s.defaultCone).Accepts
    (e.1.1.frame.load (e.1.1.frictionOr s.defaultFriction) (z.force e.2))
  effort : ∀ limits ∈ d.effortLimits, ∀ k < d.numActuators, |z.inputs.entry k| ≤ limits.entry k

variable {d : TickData ℝ} {s : Settings ℝ} {nv nu : ℕ} {x : Vec ℝ}

/-! ### One block at a time -/

/-- A row of the equations of motion is off by what the forces exceed `M v̇ + c`. -/
theorem entry_residual_dynamicsBlock (h : d.Shaped nv nu) (k : ℕ) :
    let z := (d.layout s).split x
    ((d.dynamicsBlock (d.layout s)).residual x).entry k =
      (d.actuation.mulVec z.inputs).entry k + d.contactTorque z k + d.loopTorque z k
        - ((d.massMatrix.mulVec z.accelerations).entry k + d.bias.entry k) := by
  intro z
  have hb : (d.dynamicsBlock (d.layout s)).b.entry k = -d.bias.entry k := Vec.entry_neg
  rw [(h.conforms_dynamicsBlock s).entry_residual, mulVec_dynamicsBlock h, hb]
  ring

theorem holds_dynamicsBlock_iff (h : d.Shaped nv nu) :
    let z := (d.layout s).split x
    (d.dynamicsBlock (d.layout s)).Holds x ↔ ∀ k < d.numVelocities,
      (d.massMatrix.mulVec z.accelerations).entry k + d.bias.entry k =
        (d.actuation.mulVec z.inputs).entry k + d.contactTorque z k + d.loopTorque z k := by
  intro z
  have hrows := (shape_dynamicsBlock (d := d) (d.layout s)).1
  change (∀ k < ((d.dynamicsBlock (d.layout s)).residual x).size, _ = 0) ↔ _
  rw [(h.conforms_dynamicsBlock s).size_residual, hrows]
  refine forall₂_congr fun k _ => ?_
  rw [entry_residual_dynamicsBlock h, sub_eq_zero, eq_comm]

/-- The block of a holonomic family says that `J v̇ + J̇ v` is the slack. -/
theorem holds_holonomic_iff {J : Mat ℝ} {jdotV : Vec ℝ} {accel : Span} {slack : Option Span}
    {n : ℕ} (hfits : HolonomicFits J accel slack n)
    (horder : ∀ t ∈ slack, accel.start + accel.size ≤ t.start) (hsize : jdotV.size = J.rows) :
    (ConstraintBlock.mk .zero (holonomicRows J accel slack n) (-jdotV)).Holds x ↔
      ∀ k < J.rows, (J.mulVec (x.slice accel.start accel.size)).entry k + jdotV.entry k =
        slack.elim 0 fun t => x.entry (t.start + k) := by
  obtain ⟨hrows, hcols⟩ := shape_holonomicRows J accel slack n
  have hconf : (ConstraintBlock.mk .zero (holonomicRows J accel slack n) (-jdotV)).Conforms n :=
    ⟨hcols, (Vec.size_neg _).trans (hsize.trans hrows.symm)⟩
  change (∀ k < (ConstraintBlock.residual _ x).size, _ = 0) ↔ _
  rw [hconf.size_residual, hrows]
  refine forall₂_congr fun k hk => ?_
  rw [hconf.entry_residual, mulVec_holonomicRows hfits horder hk, Vec.entry_neg]
  constructor <;> intro heq <;> linarith

/-- The slack of a contact is the one of its mode. -/
theorem elim_contactSlackOf {i k : ℕ} (hi : i < d.contacts.length) (hk : k < 3) :
    (((d.layout s).contactSlackOf i).elim 0 fun t => x.entry (t.start + k)) =
      s.contactMode.slack ((((d.layout s).split x).contactSlack i).component k) := by
  cases hmode : s.contactMode with
  | hard => rw [contactSlackOf_hard hmode, Option.elim_none, ConstraintMode.slack]
  | soft w =>
    rw [contactSlackOf_soft hmode hi, Option.elim_some, ConstraintMode.slack,
      VariableLayout.split, Vec3.component_ofVec _ hk, layout_contactSlack, Span.start_ofSize]

/-- The slack of a loop row is the one of its mode. -/
theorem elim_loopSlack? {k : ℕ} (hk : k < d.numLoopRows) :
    ((d.layout s).loopSlack?.elim 0 fun t => x.entry (t.start + k)) =
      s.loopMode.slack (((d.layout s).split x).loopSlack.entry k) := by
  cases hmode : s.loopMode with
  | hard => rw [loopSlack?_hard hmode, Option.elim_none, ConstraintMode.slack]
  | soft w =>
    have hsize : (d.layout s).loopSlack.size = d.numLoopRows := by
      simp [layout_loopSlack, Span.size, hmode, ConstraintMode.slackRows]
    rw [loopSlack?_soft hmode (by omega), Option.elim_some, ConstraintMode.slack]
    exact (Vec.entry_slice (hsize ▸ hk)).symm

theorem holds_noSlipBlock_iff (h : d.Shaped nv nu)
    {e : (ContactPoint ℝ × PointKinematics ℝ) × ℕ} (he : e ∈ d.numbered) :
    let z := (d.layout s).split x
    (noSlipBlock (d.layout s) e).Holds x ↔ ∀ k < 3,
      (e.1.2.jacobian.toMat.mulVec z.accelerations).entry k + e.1.2.jdotV.component k =
        s.contactMode.slack ((z.contactSlack e.2).component k) := by
  intro z
  have hlt := lt_of_mem_numbered he
  refine (holds_holonomic_iff (h.holonomicFits_contact s he) (accelerations_le_contactSlackOf hlt)
    rfl).trans ?_
  refine forall₂_congr fun k (hk : k < 3) => ?_
  rw [elim_contactSlackOf hlt hk, Vec3.entry_toVec]
  rfl

theorem holds_loopBlocks_iff (h : d.Shaped nv nu) :
    let z := (d.layout s).split x
    (∀ c ∈ d.loopBlocks (d.layout s), c.Holds x) ↔
      ∀ loops ∈ d.loops, ∀ k < loops.jacobian.rows,
        (loops.jacobian.mulVec z.accelerations).entry k + loops.jdotV.entry k =
          s.loopMode.slack (z.loopSlack.entry k) := by
  intro z
  rw [loopBlocks]
  cases hl : d.loops with
  | none => simp
  | some loops =>
    have hcount : d.numLoopRows = loops.jacobian.rows := by rw [numLoopRows, hl]
    simp only [List.mem_singleton, forall_eq, Option.mem_some, forall_eq']
    refine (holds_holonomic_iff (h.holonomicFits_loops s hl) accelerations_le_loopSlack?
      (h.loops loops hl).2).trans ?_
    refine forall₂_congr fun k hk => ?_
    rw [elim_loopSlack? (hcount ▸ hk)]
    rfl

/-- A block of inequalities over the force of a contact. -/
theorem holds_forceRows_iff {l : VariableLayout} {i : ℕ} {G : Mat ℝ} {b : Vec ℝ}
    (hcols : G.cols = 3) (hstop : (l.contact i).stop ≤ l.numVariables)
    (hsize : b.size = G.rows) :
    (ConstraintBlock.mk .nonnegative (forceRows l i G) b).Holds x ↔
      ∀ k < G.rows, (G.mulVec ((l.split x).force i).toVec).entry k ≤ b.entry k := by
  have hconf : (ConstraintBlock.mk .nonnegative (forceRows l i G) b).Conforms
      l.numVariables := ⟨rfl, hsize⟩
  change (∀ k < (ConstraintBlock.residual _ x).size, 0 ≤ _) ↔ _
  rw [hconf.size_residual]
  refine forall₂_congr fun k _ => ?_
  rw [hconf.entry_residual, mulVec_forceRows hcols hstop, sub_nonneg]

/-- The row of the least normal force of a contact is what its force exceeds it. -/
theorem entry_residual_leastNormal {l : VariableLayout} {i : ℕ} (frame : ContactFrame ℝ)
    (least : ℝ) (hstop : (l.contact i).stop ≤ l.numVariables) :
    let row := frame.minNormalRow least
    ((ConstraintBlock.mk .nonnegative (forceRows l i (.ofFn 1 3 fun _ j => row.1.component j))
      (.ofList [row.2])).residual x).entry 0 =
        frame.normal.dot ((l.split x).force i) - least := by
  intro row
  let G : Mat ℝ := .ofFn 1 3 fun _ j => row.1.component j
  have hconf : (ConstraintBlock.mk .nonnegative (forceRows l i G) (.ofList [row.2])).Conforms
      l.numVariables := ⟨rfl, rfl⟩
  have hrow : (G.mulVec ((l.split x).force i).toVec).entry 0 =
      -frame.normal.dot ((l.split x).force i) :=
    (Vec3.entry_mulVec_ofFn (fun _ => row.1) _ Nat.one_pos).trans (Vec3.neg_dot _ _)
  have hbound : (Vec.ofList [row.2]).entry 0 = -least := rfl
  rw [hconf.entry_residual, mulVec_forceRows (G := G) rfl hstop, hrow, hbound]
  ring

/-- The least normal force of a contact. -/
theorem holds_leastNormal_iff {l : VariableLayout} {i : ℕ} (frame : ContactFrame ℝ) (least : ℝ)
    (hstop : (l.contact i).stop ≤ l.numVariables) :
    let row := frame.minNormalRow least
    (ConstraintBlock.mk .nonnegative (forceRows l i (.ofFn 1 3 fun _ j => row.1.component j))
      (.ofList [row.2])).Holds x ↔ least ≤ frame.normal.dot ((l.split x).force i) := by
  intro row
  let block : ConstraintBlock ℝ :=
    ⟨.nonnegative, forceRows l i (.ofFn 1 3 fun _ j => row.1.component j), .ofList [row.2]⟩
  have hentry : (block.residual x).entry 0 = frame.normal.dot ((l.split x).force i) - least :=
    entry_residual_leastNormal frame least hstop
  calc block.Holds x ↔ ∀ k < 1, 0 ≤ (block.residual x).entry k := Iff.rfl
    _ ↔ 0 ≤ (block.residual x).entry 0 := by simp
    _ ↔ _ := by rw [hentry, sub_nonneg]

/-- The second-order cone of a contact. -/
theorem holds_secondOrder_iff {l : VariableLayout} {i : ℕ} (rows : Mat3 ℝ)
    (hstop : (l.contact i).stop ≤ l.numVariables) :
    (ConstraintBlock.mk .secondOrder (forceRows l i (-rows).toMat) (.zeros 3)).Holds x ↔
      (ConeRows.secondOrder rows).Admits ((l.split x).force i) := by
  let load := rows.mulVec ((l.split x).force i)
  let block : ConstraintBlock ℝ := ⟨.secondOrder, forceRows l i (-rows).toMat, .zeros 3⟩
  have hconf : block.Conforms l.numVariables := ⟨rfl, rfl⟩
  have hentry {k : ℕ} (hk : k < 3) : (block.residual x).entry k = load.component k := by
    have hA : (block.A.mulVec x).entry k = -load.component k := by
      rw [mulVec_forceRows (G := (-rows).toMat) rfl hstop, Mat3.entry_mulVec_toMat _ _ hk,
        Mat3.mulVec_neg]
      match k, hk with
      | 0, _ | 1, _ | 2, _ => rfl
    rw [hconf.entry_residual, hA, Vec.entry_zeros, zero_sub, neg_neg]
  change ((block.residual x).slice 1 2).norm ≤ (block.residual x).entry 0 ↔ _
  rw [Vec.norm_slice_two, hentry (by decide), hentry (by decide), hentry (by decide)]
  rfl

theorem holds_contact_iff {e : (ContactPoint ℝ × PointKinematics ℝ) × ℕ} (he : e ∈ d.numbered) :
    let l := d.layout s
    let force := (l.split x).force e.2
    ((∀ c ∈ normalBlocks l s e, c.Holds x) ∧ ∀ c ∈ coneBlocks l s e, c.Holds x) ↔
      s.minNormalForce ≤ e.1.1.frame.normal.dot force ∧ (contactCone s e.1.1).Admits force := by
  intro l force
  have hstop := stop_contact_le (s := s) (lt_of_mem_numbered he)
  have hleast := holds_leastNormal_iff (x := x) e.1.1.frame s.minNormalForce hstop
  rw [normalBlocks, coneBlocks]
  cases hcone : contactCone s e.1.1 with
  | polyhedral rows =>
    have hcols : rows.cols = 3 := ContactFrame.cols_of_coneRows_eq hcone
    have hpolygon : (ConstraintBlock.mk .nonnegative (forceRows l e.2 rows)
        (.zeros rows.rows)).Holds x ↔ (ConeRows.polyhedral rows).Admits force := by
      refine (holds_forceRows_iff hcols hstop (Vec.size_zeros _)).trans ?_
      simp only [Vec.entry_zeros]
      rfl
    rw [List.forall_mem_cons, List.forall_mem_singleton, and_iff_left (List.forall_mem_nil _)]
    exact and_congr hleast hpolygon
  | secondOrder rows =>
    rw [List.forall_mem_singleton, List.forall_mem_singleton]
    exact and_congr hleast (holds_secondOrder_iff rows hstop)

/-- Inequalities that bound a value from above, and after all of these from below. -/
theorem holds_twoSided_iff {c : ConstraintBlock ℝ} {n : ℕ} {value limit : ℕ → ℝ}
    (hkind : c.kind = .nonnegative) (hsize : (c.residual x).size = 2 * n)
    (hrows : ∀ k < n, (c.residual x).entry k = limit k - value k ∧
      (c.residual x).entry (n + k) = limit k + value k) :
    c.Holds x ↔ ∀ k < n, |value k| ≤ limit k := by
  rw [ConstraintBlock.Holds, hkind, ConeKind.Contains, hsize]
  constructor
  · intro h k hk
    have hhigh := h k (by omega)
    have hlow := h (n + k) (by omega)
    rw [(hrows k hk).1] at hhigh
    rw [(hrows k hk).2] at hlow
    exact abs_le.2 ⟨by linarith, by linarith⟩
  · intro h i hi
    by_cases hk : i < n
    · rw [(hrows i hk).1]
      linarith [(abs_le.1 (h i hk)).2]
    · obtain ⟨k, rfl⟩ := Nat.exists_eq_add_of_le (Nat.le_of_not_lt hk)
      rw [(hrows k (by omega)).2]
      linarith [(abs_le.1 (h k (by omega))).1]

/-- The rows of the effort limits are what each input leaves above it, and after these what it
leaves below it. -/
theorem exists_effortBlocks_eq {limits : Vec ℝ} (hl : d.effortLimits = some limits)
    (s : Settings ℝ) (x : Vec ℝ) :
    let z := (d.layout s).split x
    ∃ c, d.effortBlocks (d.layout s) = [c] ∧ c.kind = .nonnegative ∧
      (c.residual x).size = 2 * d.numActuators ∧ ∀ k < d.numActuators,
        (c.residual x).entry k = limits.entry k - z.inputs.entry k ∧
          (c.residual x).entry (d.numActuators + k) = limits.entry k + z.inputs.entry k := by
  intro z
  let l := d.layout s
  let A : Mat ℝ := .ofFn (2 * d.numActuators) l.numVariables fun i j =>
    if i < d.numActuators then if j = l.inputs.start + i then 1 else 0
    else if j = l.inputs.start + (i - d.numActuators) then -1 else 0
  let b : Vec ℝ := .ofFn (2 * d.numActuators) fun i =>
    if i < d.numActuators then limits.entry i else limits.entry (i - d.numActuators)
  have hconf : (ConstraintBlock.mk .nonnegative A b).Conforms l.numVariables :=
    ⟨rfl, Vec.size_ofFn _ _⟩
  have hstart : l.inputs.start + d.numActuators = l.inputs.stop := by
    simp only [l, layout_inputs, numHardVariables]
  have hstop : l.inputs.stop ≤ l.numVariables := stop_le_numVariables d s (by simp [l])
  refine ⟨⟨.nonnegative, A, b⟩, by rw [effortBlocks, hl], rfl, hconf.size_residual, ?_⟩
  intro k hk
  obtain ⟨hupper, hlower⟩ := mulVec_inputRows (x := x) hstart hstop hk
  have habove : b.entry k = limits.entry k := by
    rw [Vec.entry_ofFn_of_lt (by omega), if_pos hk]
  have hbelow : b.entry (d.numActuators + k) = limits.entry k := by
    rw [Vec.entry_ofFn_of_lt (by omega), if_neg (by omega), Nat.add_sub_cancel_left]
  constructor
  · rw [hconf.entry_residual, habove, hupper]
  · rw [hconf.entry_residual, hbelow, hlower, sub_neg_eq_add]

theorem holds_effortBlocks_iff :
    let z := (d.layout s).split x
    (∀ c ∈ d.effortBlocks (d.layout s), c.Holds x) ↔
      ∀ limits ∈ d.effortLimits, ∀ k < d.numActuators,
        |z.inputs.entry k| ≤ limits.entry k := by
  intro z
  cases hl : d.effortLimits with
  | none => simp [effortBlocks, hl]
  | some limits =>
    obtain ⟨c, hc, hkind, hsize, hrows⟩ := exists_effortBlocks_eq hl s x
    simp only [hc, List.forall_mem_singleton, Option.mem_some, forall_eq']
    exact holds_twoSided_iff hkind hsize hrows

/-! ### All blocks -/

theorem feasible_program_iff (h : d.Shaped nv nu) (a : Assembler ℝ) (terms : List (TaskTerm ℝ)) :
    (d.program a terms).Feasible x ↔
      d.Meets a.settings ((d.program a terms).layout.split x) := by
  let l := d.layout a.settings
  have hstack : (d.program a terms).Feasible x ↔ ∀ c ∈ d.blocks a.settings, c.Holds x :=
    ConstraintStack.inProduct_pushAll_iff (h.conforms_of_mem_blocks a.settings)
  rw [hstack]
  have hcones (e) (he : e ∈ d.numbered) :=
    (holds_contact_iff (s := a.settings) (x := x) he).trans
      (and_congr_right' (ContactFrame.admits_coneRows_iff _))
  simp only [blocks, List.forall_mem_append, List.forall_mem_map, List.forall_mem_singleton,
    List.forall_mem_flatMap]
  constructor
  · rintro ⟨⟨⟨⟨⟨hdyn, hslip⟩, hloops⟩, hnormal⟩, heffort⟩, hcone⟩
    have hcontact e (he : e ∈ d.numbered) := (hcones e he).1 ⟨hnormal e he, hcone e he⟩
    exact ⟨(holds_dynamicsBlock_iff h).1 hdyn,
      fun e he => (holds_noSlipBlock_iff h he).1 (hslip e he),
      (holds_loopBlocks_iff h).1 hloops, fun e he => (hcontact e he).1,
      fun e he => (hcontact e he).2, holds_effortBlocks_iff.1 heffort⟩
  · rintro ⟨hdyn, hslip, hloops, hleast, hfriction, heffort⟩
    have hcontact e (he : e ∈ d.numbered) := (hcones e he).2 ⟨hleast e he, hfriction e he⟩
    exact ⟨⟨⟨⟨⟨(holds_dynamicsBlock_iff h).2 hdyn,
      fun e he => (holds_noSlipBlock_iff h he).2 (hslip e he)⟩,
      (holds_loopBlocks_iff h).2 hloops⟩, fun e he => (hcontact e he).1⟩,
      holds_effortBlocks_iff.2 heffort⟩, fun e he => (hcontact e he).2⟩

end TickData

/-- A point is feasible for a program that was built exactly when it meets the physical constraints
that the answers of the robot pose. -/
theorem feasible_iff_meets {a : Assembler ℝ} {model : RobotModel ℝ} {state : RobotState ℝ}
    {terms : List (TaskTerm ℝ)} {contacts : List (ContactPoint ℝ)} {p : ConeProgram ℝ}
    (h : a.build model state terms contacts = .ok p) :
    ∃ d : TickData ℝ, d.Answers model state contacts ∧
      ∀ x : Vec ℝ, p.Feasible x ↔ d.Meets a.settings (p.layout.split x) := by
  obtain ⟨d, hd, -, -, -, rfl⟩ := Assembler.of_build_eq_ok h
  obtain ⟨hanswers, hshaped⟩ := TickData.of_gather_eq_ok hd
  exact ⟨d, hanswers, fun x => TickData.feasible_program_iff hshaped a terms⟩

/-- A point mass on one foot. -/
theorem feasible_iff_meets_pointMass :
    let r : PointMass ℝ := ⟨"mass", 1, 10⟩
    let a : Assembler ℝ := ⟨.standard, []⟩
    let state : RobotState ℝ := ⟨.zeros 3, .zeros 3⟩
    let foot : ContactPoint ℝ := ⟨"foot", ⟨"mass", 0⟩, .unitZ, none, some .conic⟩
    ∃ p, a.build r.model state [] [foot] = .ok p ∧
      ∃ d : TickData ℝ, d.Answers r.model state [foot] ∧
        ∀ x : Vec ℝ, p.Feasible x ↔ d.Meets a.settings (p.layout.split x) := by
  intro r a state foot
  have hbuild : a.build r.model state [] [foot] = .ok ((r.tickData state [foot]).program a []) :=
    PointMass.build_eq_ok ⟨rfl, rfl⟩ (List.forall_mem_singleton.2 rfl) nofun nofun
  exact ⟨_, hbuild, feasible_iff_meets hbuild⟩

end WholeBody
