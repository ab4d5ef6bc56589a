import Mathlib
import WholeBody.Proofs.Program.Cones
import WholeBody.Proofs.Program.Join

/-!
# The equations of a program

The rows of the zero cones of a program are its equations. A point can solve them without being
feasible: no inequality or second-order cone is asked for.

## Main statements

* `ConstraintStack.kindAt_cones` — merged cones keep the kind of every row.
* `ConeProgram.Feasible.solvesEquations` — a feasible point solves the equations.
* `TickData.exists_row` — the rows of a block of a tick.
* `TickData.holds_of_solvesEquations` — the equations of a tick hold block by block.
-/

namespace WholeBody

/-- The kind of the cone that a row belongs to. -/
def kindAt : List ConeBlock → ℕ → Option ConeKind
  | [], _ => none
  | c :: rest, i => if i < c.dim then some c.kind else kindAt rest (i - c.dim)

/-- Every row of a zero cone has no residual at a point. -/
def ConeProgram.SolvesEquations (p : ConeProgram ℝ) (x : Vec ℝ) : Prop :=
  ∀ i, kindAt p.cones i = some .zero → (p.residual x).entry i = 0

/-! ### Rows and their cones -/

theorem kindAt_merge (c : ConeBlock) (cs : List ConeBlock) (i : ℕ) :
    kindAt (c.merge cs) i = kindAt (c :: cs) i := by
  cases cs with
  | nil => rfl
  | cons d rest =>
    rw [ConeBlock.merge]
    by_cases hsame : c.kind = d.kind ∧ c.kind ≠ .secondOrder
    · rw [if_pos hsame]
      simp only [kindAt, ← hsame.1]
      by_cases hc : i < c.dim
      · rw [if_pos (by omega), if_pos hc]
      · by_cases hd : i - c.dim < d.dim
        · rw [if_pos (by omega), if_neg hc, if_pos hd]
        · rw [if_neg (by omega), if_neg hc, if_neg hd, Nat.sub_sub]
    · rw [if_neg hsame]

/-- In a product of cones, the rows of zero cones are zero. -/
theorem InConesFrom.entry_eq_zero {s : Vec ℝ} {cs : List ConeBlock} {row i : ℕ}
    (h : InConesFrom s cs row) (hi : kindAt cs i = some .zero) : s.entry (row + i) = 0 := by
  induction cs generalizing row i with
  | nil => cases hi
  | cons c rest ih =>
    obtain ⟨hc, hrest⟩ := h
    rw [kindAt] at hi
    by_cases hlt : i < c.dim
    · rw [if_pos hlt, Option.some_inj] at hi
      rw [hi] at hc
      have hzero := hc i (by rwa [Vec.size_slice])
      rwa [Vec.entry_slice hlt] at hzero
    · rw [if_neg hlt] at hi
      have hzero := ih hrest hi
      rwa [Nat.add_assoc, Nat.add_sub_cancel' (by omega)] at hzero

theorem ConeProgram.Feasible.solvesEquations {p : ConeProgram ℝ} {x : Vec ℝ} (h : p.Feasible x) :
    p.SolvesEquations x := by
  intro i hi
  have hzero := h.2.entry_eq_zero hi
  rwa [Nat.zero_add] at hzero

namespace ConstraintStack

/-- A row has the kind of the block that holds it, whatever cones were merged. -/
theorem kindAt_cones {α : Type} (s : ConstraintStack α) (i : ℕ) :
    kindAt s.cones i = (locate s.blocks i).map (·.1.kind) := by
  rw [cones]
  induction s.blocks generalizing i with
  | nil => rfl
  | cons c rest ih =>
    rw [List.map_cons, List.foldr_cons, kindAt_merge, kindAt, locate, ih]
    split <;> rfl

/-- Every row of a block is a row of the stack. -/
theorem exists_locate {α : Type} {bs : List (ConstraintBlock α)} {c : ConstraintBlock α} {k : ℕ}
    (hc : c ∈ bs) (hk : k < c.A.rows) : ∃ i, locate bs i = some (c, k) := by
  induction bs with
  | nil => cases hc
  | cons b rest ih =>
    obtain rfl | hc := List.mem_cons.1 hc
    · exact ⟨k, by rw [locate, if_pos hk]⟩
    · obtain ⟨i, hi⟩ := ih hc
      exact ⟨b.A.rows + i, by rw [locate, if_neg (by omega), Nat.add_sub_cancel_left, hi]⟩

end ConstraintStack

namespace TickData

variable {d : TickData ℝ} {nv nu : ℕ} {a : Assembler ℝ} {terms : List (TaskTerm ℝ)} {x : Vec ℝ}

/-- Every row of a block of a tick is a row of its program, in a cone of the kind of the block. -/
theorem exists_row (h : d.Shaped nv nu) (terms : List (TaskTerm ℝ)) (x : Vec ℝ)
    {c : ConstraintBlock ℝ} (hc : c ∈ d.blocks a.settings) {k : ℕ} (hk : k < c.A.rows) :
    ∃ i, kindAt (d.program a terms).cones i = some c.kind ∧
      ((d.program a terms).residual x).entry i = (c.residual x).entry k := by
  have hblock : c ∈ (d.constraints a.settings).blocks :=
    ConstraintStack.mem_blocks_pushAll.2 ⟨hc, by omega⟩
  obtain ⟨i, hi⟩ := ConstraintStack.exists_locate hblock hk
  refine ⟨i, ?_, ConstraintStack.entry_residual_of_locate (h.conforms_constraints a.settings) hi⟩
  change kindAt (d.constraints a.settings).cones i = _
  rw [ConstraintStack.kindAt_cones, hi, Option.map_some]

/-- The equations of a tick hold block by block. -/
theorem holds_of_solvesEquations (h : d.Shaped nv nu)
    (hx : (d.program a terms).SolvesEquations x) :
    ∀ c ∈ d.equations (d.layout a.settings), c.Holds x := by
  intro c hc
  have hkind : c.kind = .zero := kind_of_mem_equations c hc
  have hmem : c ∈ d.blocks a.settings := by
    rw [blocks_eq]
    simp [hc]
  rw [ConstraintBlock.Holds, hkind]
  intro k hk
  rw [(h.conforms_of_mem_blocks a.settings c hmem).size_residual] at hk
  obtain ⟨i, hi, hentry⟩ := exists_row h terms x hmem hk
  rw [← hentry]
  exact hx i (hkind ▸ hi)

/-- A point that solves the equations obeys the equations of motion. -/
theorem dynamics_of_solvesEquations (h : d.Shaped nv nu)
    (hx : (d.program a terms).SolvesEquations x) :
    let z := (d.program a terms).layout.split x
    ∀ k < d.numVelocities, (d.massMatrix.mulVec z.accelerations).entry k + d.bias.entry k =
      (d.actuation.mulVec z.inputs).entry k + d.contactTorque z k + d.loopTorque z k := by
  have hmem : d.dynamicsBlock (d.layout a.settings) ∈ d.equations (d.layout a.settings) := by
    simp [equations]
  exact (holds_dynamicsBlock_iff h).1 (holds_of_solvesEquations h hx _ hmem)

/-- The vector of a decision that meets the constraints solves the equations. -/
theorem Meets.solvesEquations_join {z : Decision} (hz : d.Meets a.settings z) (h : d.Shaped nv nu)
    (hsized : d.Sized z) (terms : List (TaskTerm ℝ)) :
    (d.program a terms).SolvesEquations ((d.layout a.settings).join z) :=
  ((feasible_program_iff h a terms).2 (hz.split_join hsized)).solvesEquations

end TickData

end WholeBody
