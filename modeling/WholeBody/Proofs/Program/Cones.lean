import Mathlib
import WholeBody.Proofs.Program.Shape

/-!
# The cones of a program

A tick pushes its equations first, its inequalities after them and its second-order cones last. So
the rows of each of the first two kinds end up in one cone, however many blocks there were and
whichever of them had no rows.

## Main statements

* `ConstraintStack.foldr_merge_of_kind` — blocks of one kind become one cone.
* `TickData.cones_program` — the cones of a tick.
-/

namespace WholeBody

/-- Rows that a friction cone adds to the inequalities. -/
def ConeModel.numFacets : ConeModel → Nat
  | linear n => n
  | conic => 0

variable {α : Type}

/-- The cones of a tick: one for all equations, one for all inequalities, and one for each conic
contact. Cones without rows are left out. -/
def tickCones [Scalar α] (s : Settings α) (contacts : List (ContactPoint α))
    (numVelocities numLoopRows numEffortRows : Nat) : List ConeBlock :=
  let cones := contacts.map (·.coneOr s.defaultCone)
  let equations := numVelocities + 3 * contacts.length + numLoopRows
  let inequalities := contacts.length + (cones.map (·.numFacets)).sum + numEffortRows
  ([⟨.zero, equations⟩, ⟨.nonnegative, inequalities⟩] ++
    .replicate (cones.count .conic) ⟨.secondOrder, 3⟩).filter (0 < ·.dim)

/-! ### Merging -/

theorem merge_secondOrder (n : Nat) (cs : List ConeBlock) :
    ConeBlock.merge ⟨.secondOrder, n⟩ cs = ⟨.secondOrder, n⟩ :: cs := by
  cases cs <;> simp [ConeBlock.merge]

/-- Second-order cones stay apart. -/
theorem foldr_merge_replicate (k n : Nat) :
    (List.replicate k (⟨.secondOrder, n⟩ : ConeBlock)).foldr ConeBlock.merge [] =
      .replicate k ⟨.secondOrder, n⟩ := by
  induction k with
  | zero => rfl
  | succ k ih => rw [List.replicate_succ, List.foldr_cons, ih, merge_secondOrder]

/-- The cone of a block of rows by itself. -/
def ConstraintBlock.cone (c : ConstraintBlock α) : ConeBlock := ⟨c.kind, c.A.rows⟩

namespace ConstraintStack

variable {bs bs' : List (ConstraintBlock α)}

theorem rowsOf_eq_sum (bs : List (ConstraintBlock α)) : rowsOf bs = (bs.map (·.A.rows)).sum := by
  induction bs with
  | nil => rfl
  | cons c rest ih => simp [rowsOf, ih]

theorem rowsOf_append : rowsOf (bs ++ bs') = rowsOf bs + rowsOf bs' := by
  simp [rowsOf_eq_sum]

theorem rowsOf_flatMap {τ : Type} (es : List τ) (f : τ → List (ConstraintBlock α)) :
    rowsOf (es.flatMap f) = (es.map fun e => rowsOf (f e)).sum := by
  induction es with
  | nil => rfl
  | cons e es ih => simp [rowsOf_append, ih]

theorem cones_eq (s : ConstraintStack α) :
    s.cones = (s.blocks.map (·.cone)).foldr ConeBlock.merge [] := rfl

/-- Blocks of one kind become one cone, or none if they have no rows. -/
theorem foldr_merge_of_kind {kind : ConeKind} {rest : List ConeBlock} (hkind : kind ≠ .secondOrder)
    (hbs : ∀ c ∈ bs, c.kind = kind) (hrest : ∀ e ∈ rest.head?, e.kind ≠ kind) :
    ((bs.filter (·.A.rows ≠ 0)).map (·.cone)).foldr ConeBlock.merge rest =
      [⟨kind, rowsOf bs⟩].filter (0 < ·.dim) ++ rest := by
  induction bs with
  | nil => rfl
  | cons c bs ih =>
    obtain ⟨hc, hbs⟩ := List.forall_mem_cons.1 hbs
    have ih := ih hbs
    by_cases hrows : c.A.rows = 0
    · simpa [hrows, rowsOf] using ih
    · have hmerge : c.cone.merge ([⟨kind, rowsOf bs⟩].filter (0 < ·.dim) ++ rest) =
          ⟨kind, c.A.rows + rowsOf bs⟩ :: rest := by
        by_cases hzero : rowsOf bs = 0
        · cases rest with
          | nil => simp [hzero, ConeBlock.merge, ConstraintBlock.cone, hc]
          | cons e rest =>
            have hne : kind ≠ e.kind := fun h => hrest e rfl h.symm
            simp [hzero, ConeBlock.merge, ConstraintBlock.cone, hc, hne]
        · simp [Nat.pos_of_ne_zero hzero, ConeBlock.merge, ConstraintBlock.cone, hc, hkind]
      have hpos : 0 < c.A.rows + rowsOf bs := by omega
      rw [List.filter_cons_of_pos (by simpa using hrows), List.map_cons, List.foldr_cons, ih,
        hmerge]
      simp [rowsOf, hpos]

/-- The cones of equations, inequalities and second-order cones that are pushed in this order. -/
theorem cones_pushAll {equations inequalities conics : List (ConstraintBlock α)} {k m n : Nat}
    (hequations : ∀ c ∈ equations, c.kind = .zero)
    (hinequalities : ∀ c ∈ inequalities, c.kind = .nonnegative)
    (hconics : conics.map (·.cone) = .replicate k ⟨.secondOrder, m + 1⟩) :
    ((empty n).pushAll (equations ++ inequalities ++ conics)).cones =
      ([⟨.zero, rowsOf equations⟩, ⟨.nonnegative, rowsOf inequalities⟩] ++
        .replicate k ⟨.secondOrder, m + 1⟩).filter (0 < ·.dim) := by
  let last : List ConeBlock := .replicate k ⟨.secondOrder, m + 1⟩
  let middle := [(⟨.nonnegative, rowsOf inequalities⟩ : ConeBlock)].filter (0 < ·.dim) ++ last
  have hkeep : conics.filter (·.A.rows ≠ 0) = conics := by
    refine List.filter_eq_self.2 fun c hc => ?_
    have hmem : c.cone ∈ conics.map (·.cone) := List.mem_map_of_mem hc
    rw [hconics] at hmem
    have hrows : c.A.rows = m + 1 := congrArg ConeBlock.dim (List.eq_of_mem_replicate hmem)
    simp [hrows]
  have hlast : ∀ e ∈ last.head?, e.kind = .secondOrder := by
    intro e he
    rw [List.eq_of_mem_replicate (List.mem_of_mem_head? he)]
  have hmiddle : ∀ e ∈ middle.head?, e.kind ≠ .zero := by
    intro e he
    by_cases hzero : rowsOf inequalities = 0
    · have he' : e ∈ last.head? := by simpa [middle, hzero] using he
      simp [hlast e he']
    · have he' : ⟨.nonnegative, rowsOf inequalities⟩ = e := by
        simpa [middle, Nat.pos_of_ne_zero hzero] using he
      simp [← he']
  have hinner : ((inequalities.filter (·.A.rows ≠ 0)).map (·.cone)).foldr ConeBlock.merge last =
      middle :=
    foldr_merge_of_kind (by decide) hinequalities fun e he => by simp [hlast e he]
  have houter := foldr_merge_of_kind (by decide) hequations hmiddle
  have hpositive : last.filter (0 < ·.dim) = last := by simp [last]
  have hsplit (c d : ConeBlock) : [c, d] ++ last = [c] ++ ([d] ++ last) := rfl
  rw [cones_eq, blocks_pushAll, List.filter_append, List.filter_append, hkeep, empty,
    List.nil_append, List.map_append, List.map_append, List.foldr_append, List.foldr_append,
    hconics, foldr_merge_replicate, hinner, houter, hsplit, List.filter_append,
    List.filter_append, hpositive]

end ConstraintStack

namespace TickData

variable [Scalar α] {d : TickData α} {nv nu : Nat}

/-! ### The three kinds of rows -/

/-- The equations of motion, the contacts that must not slip, and the closed loops. -/
def equations (d : TickData α) (l : VariableLayout) : List (ConstraintBlock α) :=
  [d.dynamicsBlock l] ++ d.numbered.map (noSlipBlock l) ++ d.loopBlocks l

/-- The normal forces with the polygonal friction cones, and the effort limits. -/
def inequalities (d : TickData α) (l : VariableLayout) (s : Settings α) :
    List (ConstraintBlock α) :=
  d.numbered.flatMap (normalBlocks l s) ++ d.effortBlocks l

/-- The second-order friction cones. -/
def conics (d : TickData α) (l : VariableLayout) (s : Settings α) : List (ConstraintBlock α) :=
  d.numbered.flatMap (coneBlocks l s)

theorem blocks_eq (s : Settings α) : d.blocks s =
    d.equations (d.layout s) ++ d.inequalities (d.layout s) s ++ d.conics (d.layout s) s := by
  simp [blocks, equations, inequalities, conics]

theorem kind_of_mem_equations {l : VariableLayout} : ∀ c ∈ d.equations l, c.kind = .zero := by
  have hloops : ∀ c ∈ d.loopBlocks l, c.kind = .zero := by
    rw [loopBlocks]
    cases d.loops <;> simp
  simp only [equations, List.forall_mem_append, List.forall_mem_map, List.forall_mem_singleton]
  exact ⟨⟨rfl, fun _ _ => rfl⟩, hloops⟩

theorem kind_of_mem_inequalities {l : VariableLayout} {s : Settings α} :
    ∀ c ∈ d.inequalities l s, c.kind = .nonnegative := by
  have hnormal (e : (ContactPoint α × PointKinematics α) × Nat) :
      ∀ c ∈ normalBlocks l s e, c.kind = .nonnegative := by
    rw [normalBlocks]
    cases contactCone s e.1.1 <;> simp
  have heffort : ∀ c ∈ d.effortBlocks l, c.kind = .nonnegative := by
    rw [effortBlocks]
    cases d.effortLimits <;> simp
  simp only [inequalities, List.forall_mem_append, List.forall_mem_flatMap]
  exact ⟨fun e _ => hnormal e, heffort⟩

/-! ### Their rows -/

theorem rowsOf_equations (h : d.Shaped nv nu) (l : VariableLayout) :
    ConstraintStack.rowsOf (d.equations l) = nv + 3 * d.contacts.length + d.numLoopRows := by
  have hdynamics : ConstraintStack.rowsOf [d.dynamicsBlock l] = nv :=
    (shape_dynamicsBlock l).1.trans h.numVelocities_eq
  have hslip : ConstraintStack.rowsOf (d.numbered.map (noSlipBlock l)) =
      3 * d.contacts.length := by
    have hthree (e : (ContactPoint α × PointKinematics α) × Nat) :
        (noSlipBlock l e).A.rows = 3 := (shape_holonomicRows e.1.2.jacobian.toMat _ _ _).1
    simp [ConstraintStack.rowsOf_eq_sum, Function.comp_def, hthree, numbered, Nat.mul_comm]
  have hloops : ConstraintStack.rowsOf (d.loopBlocks l) = d.numLoopRows := by
    rw [loopBlocks, numLoopRows]
    cases d.loops with
    | none => rfl
    | some loops => exact (shape_holonomicRows loops.jacobian _ _ _).1
  rw [equations, ConstraintStack.rowsOf_append, ConstraintStack.rowsOf_append, hdynamics, hslip,
    hloops]

omit [Scalar α] in
/-- A sum over the contacts does not need their numbers. -/
theorem sum_numbered (f : ContactPoint α → Nat) :
    (d.numbered.map fun e => f e.1.1).sum = ((d.contacts.map (·.1)).map f).sum := by
  have hfst : d.numbered.map Prod.fst = d.contacts := List.zipIdx_map_fst 0 d.contacts
  conv_rhs => rw [← hfst]
  simp [Function.comp_def]

theorem rowsOf_inequalities (l : VariableLayout) (s : Settings α) :
    ConstraintStack.rowsOf (d.inequalities l s) =
      d.contacts.length
        + (((d.contacts.map (·.1)).map (·.coneOr s.defaultCone)).map (·.numFacets)).sum
        + if d.effortLimits.isSome then 2 * d.numActuators else 0 := by
  have hone (e : (ContactPoint α × PointKinematics α) × Nat) :
      ConstraintStack.rowsOf (normalBlocks l s e) =
        1 + (e.1.1.coneOr s.defaultCone).numFacets := by
    rw [normalBlocks, contactCone]
    cases e.1.1.coneOr s.defaultCone <;> rfl
  have hnormal : ConstraintStack.rowsOf (d.numbered.flatMap (normalBlocks l s)) =
      d.contacts.length
        + (((d.contacts.map (·.1)).map (·.coneOr s.defaultCone)).map (·.numFacets)).sum := by
    simp only [ConstraintStack.rowsOf_flatMap, hone]
    rw [sum_numbered fun c => 1 + (c.coneOr s.defaultCone).numFacets, List.sum_map_add]
    simp [Function.comp_def]
  have heffort : ConstraintStack.rowsOf (d.effortBlocks l) =
      if d.effortLimits.isSome then 2 * d.numActuators else 0 := by
    rw [effortBlocks]
    cases d.effortLimits <;> rfl
  rw [inequalities, ConstraintStack.rowsOf_append, hnormal, heffort]

/-- One cone of three rows for each conic contact. -/
theorem map_cone_conics (l : VariableLayout) (s : Settings α) :
    (d.conics l s).map (·.cone) = .replicate
      (((d.contacts.map (·.1)).map (·.coneOr s.defaultCone)).count .conic) ⟨.secondOrder, 3⟩ := by
  have hone (e : (ContactPoint α × PointKinematics α) × Nat) : (coneBlocks l s e).map (·.cone) =
      if e.1.1.coneOr s.defaultCone = .conic then [⟨.secondOrder, 3⟩] else [] := by
    rw [coneBlocks, contactCone]
    cases e.1.1.coneOr s.defaultCone <;> rfl
  rw [conics, numbered]
  generalize 0 = first
  induction d.contacts generalizing first with
  | nil => rfl
  | cons e es ih =>
    rw [List.zipIdx_cons, List.flatMap_cons, List.map_append, hone, ih]
    by_cases hconic : e.1.coneOr s.defaultCone = .conic
    · simp [hconic, List.replicate_succ]
    · simp [hconic]

/-- The cones of a tick, in the order of its rows. -/
theorem cones_program (h : d.Shaped nv nu) (a : Assembler α) (terms : List (TaskTerm α)) :
    (d.program a terms).cones = tickCones a.settings (d.contacts.map (·.1)) nv d.numLoopRows
      (if d.effortLimits.isSome then 2 * nu else 0) := by
  let s := a.settings
  change ((ConstraintStack.empty (d.layout s).numVariables).pushAll (d.blocks s)).cones = _
  rw [blocks_eq, ConstraintStack.cones_pushAll kind_of_mem_equations kind_of_mem_inequalities
    (map_cone_conics _ s), rowsOf_equations h, rowsOf_inequalities, h.numActuators_eq]
  simp [tickCones, s]

end TickData

end WholeBody
