import Mathlib
import WholeBody.Proofs.Program.Gathering
import WholeBody.Proofs.Program.Layout

/-!
# Shapes of the program of a tick

Every block of rows has one column for each variable and one bound for each row, and fits into the
columns of its family. The cones cover the rows exactly, and the Hessian is square.

## Main statements

* `TickData.Shaped.conforms_of_mem_blocks` — each block of a tick conforms.
* `TickData.Shaped.rowsFit` — the answers of a robot that passed the checks fit into the program.
* `ConstraintStack.coneRows_cones` — cones and rows are equal in number.
-/

namespace WholeBody

variable {α : Type}

/-! ### Stacks -/

theorem coneRows_merge (c : ConeBlock) (cs : List ConeBlock) :
    coneRows (c.merge cs) = c.dim + coneRows cs := by
  cases cs with
  | nil => rfl
  | cons d rest =>
    rw [ConeBlock.merge]
    split
    · exact Nat.add_assoc _ _ _
    · rfl

theorem dim_pos_of_mem_merge {c : ConeBlock} {cs : List ConeBlock} (hc : 0 < c.dim)
    (hcs : ∀ e ∈ cs, 0 < e.dim) {e : ConeBlock} (he : e ∈ c.merge cs) : 0 < e.dim := by
  cases cs with
  | nil => rwa [List.mem_singleton.1 he]
  | cons d rest =>
    rw [ConeBlock.merge] at he
    split at he
    · rcases List.mem_cons.1 he with rfl | he
      · exact Nat.add_pos_left hc _
      · exact hcs e (List.mem_cons_of_mem _ he)
    · rcases List.mem_cons.1 he with rfl | he
      · exact hc
      · exact hcs e he

namespace ConstraintStack

theorem coneRows_cones (s : ConstraintStack α) : coneRows s.cones = s.numRows := by
  rw [cones, numRows]
  induction s.blocks with
  | nil => rfl
  | cons c rest ih =>
    rw [List.map_cons, List.foldr_cons, coneRows_merge, ih]
    rfl

theorem numVariables_pushAll (s : ConstraintStack α) (cs : List (ConstraintBlock α)) :
    (s.pushAll cs).numVariables = s.numVariables := by
  rw [pushAll]
  induction cs generalizing s with
  | nil => rfl
  | cons c cs ih =>
    rw [List.foldl_cons, ih, push]
    split <;> rfl

theorem blocks_pushAll (s : ConstraintStack α) (cs : List (ConstraintBlock α)) :
    (s.pushAll cs).blocks = s.blocks ++ cs.filter (·.A.rows ≠ 0) := by
  rw [pushAll]
  induction cs generalizing s with
  | nil => exact (List.append_nil _).symm
  | cons c cs ih =>
    rw [List.foldl_cons, ih, push]
    by_cases hc : c.A.rows = 0 <;> simp [hc]

theorem mem_blocks_pushAll {n : Nat} {cs : List (ConstraintBlock α)} {c : ConstraintBlock α} :
    c ∈ ((empty n).pushAll cs).blocks ↔ c ∈ cs ∧ c.A.rows ≠ 0 := by
  simp [blocks_pushAll, empty]

theorem dim_pos_of_mem_cones {s : ConstraintStack α} (hs : ∀ c ∈ s.blocks, c.A.rows ≠ 0) :
    ∀ e ∈ s.cones, 0 < e.dim := by
  rw [cones]
  generalize s.blocks = bs at hs ⊢
  induction bs with
  | nil => exact nofun
  | cons c rest ih =>
    obtain ⟨hc, hrest⟩ := List.forall_mem_cons.1 hs
    intro e he
    exact dim_pos_of_mem_merge (Nat.pos_of_ne_zero hc) (ih hrest) he

end ConstraintStack

/-! ### Blocks of rows -/

/-- One column for each of `n` variables, and one bound for each row. -/
def ConstraintBlock.Conforms (c : ConstraintBlock α) (n : Nat) : Prop :=
  c.A.cols = n ∧ c.b.size = c.A.rows

theorem ConstraintStack.conforms_pushAll {n : Nat} {cs : List (ConstraintBlock α)}
    (h : ∀ c ∈ cs, c.Conforms n) : ((empty n).pushAll cs).Conforms := by
  intro c hc
  rw [numVariables_pushAll]
  exact h c (mem_blocks_pushAll.1 hc).1

namespace TickData

theorem Shaped.numVelocities_eq {d : TickData α} {nv nu : Nat} (h : d.Shaped nv nu) :
    d.numVelocities = nv :=
  h.massMatrix.1

theorem Shaped.numActuators_eq {d : TickData α} {nv nu : Nat} (h : d.Shaped nv nu) :
    d.numActuators = nu :=
  h.actuation.2

/-- Steps that keep the shape of a matrix keep it one after the other. -/
theorem shape_foldl {τ : Type} (step : Mat α → τ → Mat α)
    (hstep : ∀ m e, (step m e).rows = m.rows ∧ (step m e).cols = m.cols) (es : List τ)
    (m : Mat α) : (es.foldl step m).rows = m.rows ∧ (es.foldl step m).cols = m.cols := by
  induction es generalizing m with
  | nil => exact ⟨rfl, rfl⟩
  | cons e es ih =>
    obtain ⟨hrows, hcols⟩ := ih (step m e)
    exact ⟨hrows.trans (hstep m e).1, hcols.trans (hstep m e).2⟩

variable [Scalar α] {d : TickData α} {nv nu : Nat}

theorem shape_dynamicsBlock (l : VariableLayout) :
    (d.dynamicsBlock l).A.rows = d.numVelocities ∧
      (d.dynamicsBlock l).A.cols = l.numVariables := by
  let blockAt (rows : Mat α) (e : (ContactPoint α × PointKinematics α) × Nat) : Mat α :=
    rows.setBlock 0 (l.contact e.2).start (-e.1.2.jacobian.toMat.transpose)
  have hfold := shape_foldl blockAt (fun _ _ => ⟨rfl, rfl⟩) d.numbered
    ((Mat.zeros d.numVelocities l.numVariables).setBlock 0 l.accelerations.start d.massMatrix)
  rw [dynamicsBlock]
  cases d.loops <;> exact hfold

theorem Shaped.conforms_dynamicsBlock (h : d.Shaped nv nu) (s : Settings α) :
    (d.dynamicsBlock (d.layout s)).Conforms (d.layout s).numVariables := by
  obtain ⟨hrows, hcols⟩ := shape_dynamicsBlock (d := d) (d.layout s)
  have hbias : d.bias.size = d.numVelocities := h.bias.trans h.numVelocities_eq.symm
  exact ⟨hcols, (Vec.size_neg _).trans (hbias.trans hrows.symm)⟩

theorem shape_holonomicRows (J : Mat α) (accel : Span) (slack : Option Span) (n : Nat) :
    (holonomicRows J accel slack n).rows = J.rows ∧ (holonomicRows J accel slack n).cols = n := by
  cases slack <;> exact ⟨rfl, rfl⟩

theorem conforms_noSlipBlock (l : VariableLayout)
    (e : (ContactPoint α × PointKinematics α) × Nat) :
    (noSlipBlock l e).Conforms l.numVariables := by
  obtain ⟨hrows, hcols⟩ := shape_holonomicRows e.1.2.jacobian.toMat l.accelerations
    (l.contactSlackOf e.2) l.numVariables
  exact ⟨hcols, (Vec.size_neg _).trans hrows.symm⟩

theorem conforms_loopBlocks (h : d.Shaped nv nu) (l : VariableLayout) :
    ∀ c ∈ d.loopBlocks l, c.Conforms l.numVariables := by
  rw [loopBlocks]
  cases hl : d.loops with
  | none => exact nofun
  | some loops =>
    intro c hc
    rw [List.mem_singleton.1 hc]
    obtain ⟨hrows, hcols⟩ := shape_holonomicRows loops.jacobian l.accelerations l.loopSlack?
      l.numVariables
    have hbias := (h.loops loops hl).2
    exact ⟨hcols, (Vec.size_neg _).trans (hbias.trans hrows.symm)⟩

theorem conforms_normalBlocks (l : VariableLayout) (s : Settings α)
    (e : (ContactPoint α × PointKinematics α) × Nat) :
    ∀ c ∈ normalBlocks l s e, c.Conforms l.numVariables := by
  rw [normalBlocks]
  have hleast (r : Nat → Nat → α) (b : α) : (ConstraintBlock.mk ConeKind.nonnegative
      (forceRows l e.2 (.ofFn 1 3 r)) (.ofList [b])).Conforms l.numVariables :=
    ⟨rfl, Vec.size_ofList _⟩
  cases contactCone s e.1.1 with
  | polyhedral rows =>
    intro c hc
    rcases List.mem_pair.1 hc with rfl | rfl
    · exact hleast _ _
    · exact ⟨rfl, Vec.size_zeros _⟩
  | secondOrder rows =>
    intro c hc
    rw [List.mem_singleton.1 hc]
    exact hleast _ _

theorem conforms_effortBlocks (l : VariableLayout) :
    ∀ c ∈ d.effortBlocks l, c.Conforms l.numVariables := by
  rw [effortBlocks]
  cases d.effortLimits with
  | none => exact nofun
  | some limits =>
    intro c hc
    rw [List.mem_singleton.1 hc]
    exact ⟨rfl, Vec.size_ofFn _ _⟩

theorem conforms_coneBlocks (l : VariableLayout) (s : Settings α)
    (e : (ContactPoint α × PointKinematics α) × Nat) :
    ∀ c ∈ coneBlocks l s e, c.Conforms l.numVariables := by
  rw [coneBlocks]
  cases contactCone s e.1.1 with
  | polyhedral rows => exact nofun
  | secondOrder rows =>
    intro c hc
    rw [List.mem_singleton.1 hc]
    exact ⟨rfl, Vec.size_zeros _⟩

theorem Shaped.conforms_of_mem_blocks (h : d.Shaped nv nu) (s : Settings α) :
    ∀ c ∈ d.blocks s, c.Conforms (d.layout s).numVariables := by
  intro c hc
  simp only [blocks, List.mem_append, List.mem_singleton, List.mem_map, List.mem_flatMap] at hc
  rcases hc with ((((rfl | ⟨e, -, rfl⟩) | hc) | ⟨e, -, hc⟩) | hc) | ⟨e, -, hc⟩
  · exact h.conforms_dynamicsBlock s
  · exact conforms_noSlipBlock _ e
  · exact conforms_loopBlocks h _ c hc
  · exact conforms_normalBlocks _ s e c hc
  · exact conforms_effortBlocks _ c hc
  · exact conforms_coneBlocks _ s e c hc

theorem Shaped.conforms_constraints (h : d.Shaped nv nu) (s : Settings α) :
    (d.constraints s).Conforms :=
  ConstraintStack.conforms_pushAll (h.conforms_of_mem_blocks s)

/-! ### Columns of the families -/

theorem Shaped.holonomicFits_contact (h : d.Shaped nv nu) (s : Settings α)
    {e : (ContactPoint α × PointKinematics α) × Nat} (he : e ∈ d.numbered) :
    HolonomicFits e.1.2.jacobian.toMat (d.layout s).accelerations
      ((d.layout s).contactSlackOf e.2) (d.layout s).numVariables := by
  have hcols := h.contacts e.1 (mem_contacts_of_mem_numbered he)
  exact VariableLayout.fits_contact_make rfl (hcols.trans h.numVelocities_eq.symm)
    (lt_of_mem_numbered he)

omit [Scalar α] in
theorem Shaped.holonomicFits_loops (h : d.Shaped nv nu) (s : Settings α)
    {loops : LoopConstraints α} (hl : d.loops = some loops) :
    HolonomicFits loops.jacobian (d.layout s).accelerations (d.layout s).loopSlack?
      (d.layout s).numVariables := by
  have hcols := (h.loops loops hl).1
  have hrows : loops.jacobian.rows = d.numLoopRows := by rw [numLoopRows, hl]
  exact VariableLayout.fits_loops_make hrows (hcols.trans h.numVelocities_eq.symm)

/-- The answers of a robot that have passed the checks fit into the columns of the program. -/
theorem Shaped.rowsFit (h : d.Shaped nv nu) (s : Settings α) : d.RowsFit s := by
  have hnv := h.numVelocities_eq
  refine ⟨⟨?_, stop_le_numVariables d s (by simp)⟩, ⟨?_, ?_, stop_le_numVariables d s (by simp)⟩,
    fun e he => ⟨?_, stop_contact_le (lt_of_mem_numbered he), h.holonomicFits_contact s he⟩,
    fun loops hl => ⟨?_, ?_, stop_le_numVariables d s (by simp), h.holonomicFits_loops s hl⟩,
    h.conforms_constraints s⟩
  · rw [layout_accelerations, hnv]
    exact h.massMatrix.2
  · rw [h.actuation.1, hnv]
  · rw [layout_inputs, numHardVariables]
    simp only [Span.size, numActuators]
    omega
  · rw [hnv]
    exact h.contacts e.1 (mem_contacts_of_mem_numbered he)
  · rw [hnv]
    exact (h.loops loops hl).1
  · rw [layout_loopForces, numLoopRows, hl]
    simp only [Span.size]
    omega

/-! ### The program -/

theorem shape_addRegularization (P : Mat α) (span : Span) (weight : α) :
    (addRegularization P span weight).rows = P.rows ∧
      (addRegularization P span weight).cols = P.cols := by
  rw [addRegularization]
  split <;> exact ⟨rfl, rfl⟩

theorem shape_addSlackPenalty (P : Mat α) (slack : Span) (mode : ConstraintMode α) :
    (addSlackPenalty P slack mode).rows = P.rows ∧
      (addSlackPenalty P slack mode).cols = P.cols := by
  cases mode <;> exact ⟨rfl, rfl⟩

theorem shape_hessian (a : Assembler α) (terms : List (TaskTerm α)) :
    (d.hessian a terms).rows = (d.layout a.settings).numVariables ∧
      (d.hessian a terms).cols = (d.layout a.settings).numVariables := by
  let n := (d.layout a.settings).numVariables
  have hterms := shape_foldl (fun P (t : TaskTerm α) => P.addBlock 0 0 t.hessian)
    (fun _ _ => ⟨rfl, rfl⟩) terms (Mat.zeros n n)
  have hcosts (P : Mat α) := shape_foldl (fun P (e : Nat × α) =>
    addPenalty P (.ofSize e.1 1) e.2) (fun _ _ => ⟨rfl, rfl⟩) a.jointCosts P
  constructor
  · simp only [hessian, shape_addSlackPenalty, shape_addRegularization, hcosts]
    exact hterms.1
  · simp only [hessian, shape_addSlackPenalty, shape_addRegularization, hcosts]
    exact hterms.2

theorem size_gradient (s : Settings α) (terms : List (TaskTerm α)) :
    (d.gradient s terms).size = (d.layout s).numVariables := by
  have hkeep (q : Vec α) : (terms.foldl (fun q t => q.addAt 0 t.gradient) q).size = q.size := by
    induction terms generalizing q with
    | nil => rfl
    | cons t rest ih => rw [List.foldl_cons, ih, Vec.size_addAt]
  exact (hkeep _).trans (Vec.size_zeros _)

theorem numVariables_program (a : Assembler α) (terms : List (TaskTerm α)) :
    (d.program a terms).numVariables = (d.layout a.settings).numVariables :=
  size_gradient a.settings terms

/-- Cost and violation of the program of a tick make sense at every vector of its size. -/
theorem evaluable_program (a : Assembler α) (terms : List (TaskTerm α)) {x : Vec α}
    (hx : x.size = (d.program a terms).numVariables) : (d.program a terms).Evaluable x := by
  have hn : x.size = (d.layout a.settings).numVariables := hx.trans (numVariables_program a terms)
  obtain ⟨hrows, hcols⟩ := shape_hessian (d := d) a terms
  have hcover := ConstraintStack.coneRows_cones (d.constraints a.settings)
  have hbounds : (d.constraints a.settings).bounds.size = (d.constraints a.settings).numRows :=
    Vec.size_ofFn _ _
  refine ⟨hrows.trans hn.symm, hcols.trans hn.symm, hx.symm, ?_, hbounds.symm,
    (hcover.trans hbounds.symm).le, fun c hc _ => ?_⟩
  · exact (ConstraintStack.numVariables_pushAll _ _).trans hn.symm
  · exact ConstraintStack.dim_pos_of_mem_cones
      (fun c hc => (ConstraintStack.mem_blocks_pushAll.1 hc).2) c hc

end TickData

theorem TaskTerm.Fits.mono [Scalar α] {t : TaskTerm α} {m n : Nat} (h : t.Fits m) (hmn : m ≤ n) :
    t.Fits n := by
  obtain ⟨hrows, hcols, hjdot, hcmd, hJ⟩ := h
  exact ⟨hrows, hcols, hjdot, hcmd, hJ.trans hmn⟩

/-- Terms and joint costs over the velocities fit into the variables of a tick. -/
theorem TickData.costFits [Scalar α] (d : TickData α) (a : Assembler α) {terms : List (TaskTerm α)}
    (hterms : ∀ t ∈ terms, t.Fits d.numVelocities)
    (hcosts : ∀ e ∈ a.jointCosts, e.1 < d.numVelocities) :
    a.CostFits terms (d.layout a.settings) := by
  have hnv : d.numVelocities ≤ (d.layout a.settings).numVariables := by
    have hstop := stop_le_numVariables d a.settings (t := (d.layout a.settings).accelerations)
      (by simp)
    rwa [layout_accelerations] at hstop
  refine ⟨fun t ht => (hterms t ht).mono hnv, fun e he => (hcosts e he).trans_le hnv,
    fun span hspan => stop_le_numVariables d a.settings ?_⟩
  simp only [List.mem_cons, List.not_mem_nil, or_false] at hspan ⊢
  tauto

/-! ### Building -/

namespace Assembler

variable [Scalar α] {a : Assembler α} {model : RobotModel α} {state : RobotState α}
  {terms : List (TaskTerm α)} {contacts : List (ContactPoint α)}

/-- The guards of a build hold for every data that a robot has answered. -/
theorem fits_of_gather_eq_ok {d : TickData α} (hd : TickData.gather model state contacts = .ok d)
    (hterms : ∀ t ∈ terms, t.Fits model.numVelocities)
    (hcosts : ∀ e ∈ a.jointCosts, e.1 < model.numVelocities) :
    a.CostFits terms (d.layout a.settings) ∧ d.RowsFit a.settings := by
  have hshaped := (TickData.of_gather_eq_ok hd).2
  rw [← hshaped.numVelocities_eq] at hterms hcosts
  exact ⟨d.costFits a hterms hcosts, hshaped.rowsFit a.settings⟩

/-- A build succeeds exactly when the robot answers, the costs fit and the effort limits are in
order: the rows then fit by themselves. -/
theorem build_eq_ok_iff {p : ConeProgram α} :
    a.build model state terms contacts = .ok p ↔
      ∃ d, TickData.gather model state contacts = .ok d ∧
        a.CostFits terms (d.layout a.settings) ∧ d.checkEffort = .ok () ∧
        p = d.program a terms := by
  constructor
  · intro h
    obtain ⟨d, hd, hcost, -, heffort, hp⟩ := of_build_eq_ok h
    exact ⟨d, hd, hcost, TickData.checkEffort_eq_ok heffort, hp⟩
  · rintro ⟨d, hd, hcost, heffort, rfl⟩
    have hrows := (TickData.of_gather_eq_ok hd).2.rowsFit a.settings
    rw [build, Except.bind_of_eq_ok (Attempt.ofExcept_eq_ok hd),
      Except.bind_of_eq_ok (Attempt.conforming_eq_ok hcost),
      Except.bind_of_eq_ok (Attempt.conforming_eq_ok hrows),
      Except.bind_of_eq_ok (Attempt.ofExcept_eq_ok heffort)]
    rfl

/-- A build succeeds once the robot has answered and its effort limits are in order. -/
theorem build_eq_ok {d : TickData α} (hd : TickData.gather model state contacts = .ok d)
    (hterms : ∀ t ∈ terms, t.Fits model.numVelocities)
    (hcosts : ∀ e ∈ a.jointCosts, e.1 < model.numVelocities) (heffort : d.checkEffort = .ok ()) :
    a.build model state terms contacts = .ok (d.program a terms) :=
  build_eq_ok_iff.2 ⟨d, hd, (fits_of_gather_eq_ok hd hterms hcosts).1, heffort, rfl⟩

/-- A build never meets sizes that do not fit together. -/
theorem conforms_build (hterms : ∀ t ∈ terms, t.Fits model.numVelocities)
    (hcosts : ∀ e ∈ a.jointCosts, e.1 < model.numVelocities) :
    Attempt.Conforms (a.build model state terms contacts) := by
  refine .bind (Attempt.conforms_ofExcept _ _) fun d hd => ?_
  have hgather := Attempt.of_ofExcept_eq_ok hd
  obtain ⟨hcost, hrows⟩ := fits_of_gather_eq_ok hgather hterms hcosts
  refine .bind (Attempt.conforms_conforming hcost) fun _ _ => ?_
  refine .bind (Attempt.conforms_conforming hrows) fun _ _ => ?_
  exact .bind (Attempt.conforms_ofExcept _ _) fun _ _ => Attempt.conforms_ok _

end Assembler

end WholeBody
