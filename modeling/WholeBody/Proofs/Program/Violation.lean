import Mathlib
import WholeBody.Proofs.Linear.Magnitude
import WholeBody.Proofs.Program.Equations
import WholeBody.Proofs.Program.Merging

/-!
# Violations

The largest violation of a point is one number for all cones. It bounds how far each row of an
equation is off zero, how far each inequality is below zero, and how much each second-order cone is
missed by, and it is zero at feasible points only.

## Main definitions

* `ConeKind.ContainsWithin` — a vector that is in a cone up to `ε`.
* `ConeProgram.FeasibleWithin` — a point that is feasible up to `ε`, row by row.
* `TickData.MeetsWithin` — a decision that a robot can carry out up to `ε`.

## Main statements

* `ConeProgram.violationFrom_le_iff` — the walk over the cones.
* `ConeProgram.maxViolation_le_iff` — the largest violation is at most `ε` exactly at these points.
* `ConeProgram.maxViolation_eq_zero_iff` — it is zero exactly at feasible points.
* `TickData.meetsWithin_maxViolation` — what the number says about the robot.
-/

namespace WholeBody

/-! ### Single cones -/

/-- The vectors that are in a cone up to `ε`. -/
def ConeKind.ContainsWithin (ε : ℝ) : ConeKind → Vec ℝ → Prop
  | zero, s => ∀ i < s.size, |s.entry i| ≤ ε
  | nonnegative, s => ∀ i < s.size, -ε ≤ s.entry i
  | secondOrder, s => (s.slice 1 (s.size - 1)).norm ≤ s.entry 0 + ε

theorem ConeKind.containsWithin_zero {kind : ConeKind} {s : Vec ℝ} :
    kind.ContainsWithin 0 s ↔ kind.Contains s := by
  cases kind with
  | zero => simp only [ContainsWithin, Contains, abs_nonpos_iff]
  | nonnegative => simp only [ContainsWithin, Contains, neg_zero]
  | secondOrder => simp only [ContainsWithin, Contains, add_zero]

namespace ConeProgram

variable {s : Vec ℝ} {ε : ℝ}

theorem coneViolation_le_iff (hε : 0 ≤ ε) (kind : ConeKind) :
    coneViolation kind s ≤ ε ↔ kind.ContainsWithin ε s := by
  cases kind with
  | zero => exact Vec.maxAbs_le_iff hε
  | nonnegative =>
    calc max (-s.minimum) 0 ≤ ε ↔ -ε ≤ s.minimum := by
          rw [max_le_iff, and_iff_left hε, neg_le]
      _ ↔ _ := Vec.le_minimum_iff (neg_nonpos.2 hε)
  | secondOrder =>
    calc max ((s.slice 1 (s.size - 1)).norm - s.entry 0) 0 ≤ ε ↔
          (s.slice 1 (s.size - 1)).norm - s.entry 0 ≤ ε := by rw [max_le_iff, and_iff_left hε]
      _ ↔ _ := sub_le_iff_le_add'

/-! ### All cones -/

theorem le_violationFrom (cones : List ConeBlock) (row : ℕ) (worst : ℝ) :
    worst ≤ violationFrom s cones row worst := by
  induction cones generalizing row worst with
  | nil => exact le_rfl
  | cons c rest ih => exact (le_max_left _ _).trans (ih _ _)

end ConeProgram

/-- What holds of every place in a list holds of the first place and of the places behind it. -/
theorem forall_split_cons {τ : Type} {P : List τ → τ → Prop} {e : τ} {rest : List τ} :
    (∀ before d after, e :: rest = before ++ d :: after → P before d) ↔
      P [] e ∧ ∀ before d after, rest = before ++ d :: after → P (e :: before) d := by
  constructor
  · refine fun h => ⟨h [] e rest rfl, fun before d after hrest => ?_⟩
    exact h (e :: before) d after (congrArg (e :: ·) hrest)
  · rintro ⟨hfirst, hlater⟩ before d after hsplit
    cases before with
    | nil =>
      obtain ⟨rfl, -⟩ := List.cons.inj hsplit
      exact hfirst
    | cons b before =>
      obtain ⟨rfl, hrest⟩ := List.cons.inj hsplit
      exact hlater before d after hrest

/-- A product of cones, cone by cone: each of them starts behind those before it. -/
theorem inConesFrom_iff_forall_split {s : Vec ℝ} (cones : List ConeBlock) (row : ℕ) :
    InConesFrom s cones row ↔ ∀ before c after, cones = before ++ c :: after →
      c.kind.Contains (s.slice (row + coneRows before) c.dim) := by
  induction cones generalizing row with
  | nil => simp [InConesFrom]
  | cons c rest ih =>
    rw [InConesFrom, ih, forall_split_cons]
    simp only [coneRows, Nat.add_zero, Nat.add_assoc]

namespace ConeProgram

variable {s : Vec ℝ} {ε : ℝ}

/-- The walk over the cones: each block is compared with its own cone. -/
theorem violationFrom_le_iff (hε : 0 ≤ ε) (cones : List ConeBlock) (row : ℕ) (worst : ℝ) :
    violationFrom s cones row worst ≤ ε ↔ worst ≤ ε ∧
      ∀ before c after, cones = before ++ c :: after →
        c.kind.ContainsWithin ε (s.slice (row + coneRows before) c.dim) := by
  induction cones generalizing row worst with
  | nil => simp [violationFrom]
  | cons c rest ih =>
    have hmax (violation : ℝ) : Scalar.max worst violation ≤ ε ↔ worst ≤ ε ∧ violation ≤ ε :=
      max_le_iff
    rw [violationFrom, ih, hmax, coneViolation_le_iff hε, forall_split_cons, and_assoc]
    simp only [coneRows, Nat.add_zero, Nat.add_assoc]

end ConeProgram

/-! ### Rows -/

/-- A row of a kind is a row of some cone of that kind. -/
theorem kindAt_eq_some_iff {cones : List ConeBlock} {kind : ConeKind} {i : ℕ} :
    kindAt cones i = some kind ↔ ∃ before n after, cones = before ++ ⟨kind, n⟩ :: after ∧
      ∃ k < n, i = coneRows before + k := by
  induction cones generalizing i with
  | nil => simp [kindAt]
  | cons c rest ih =>
    rw [kindAt]
    constructor
    · intro h
      by_cases hi : i < c.dim
      · rw [if_pos hi, Option.some_inj] at h
        exact ⟨[], c.dim, rest, by rw [← h]; rfl, i, hi, (Nat.zero_add i).symm⟩
      · rw [if_neg hi] at h
        obtain ⟨before, n, after, rfl, k, hk, hrow⟩ := ih.1 h
        exact ⟨c :: before, n, after, rfl, k, hk, by rw [coneRows]; omega⟩
    · rintro ⟨before, n, after, hsplit, k, hk, rfl⟩
      cases before with
      | nil =>
        obtain ⟨rfl, -⟩ := List.cons.inj hsplit
        rw [coneRows, Nat.zero_add, if_pos hk]
      | cons b before =>
        obtain ⟨rfl, hrest⟩ := List.cons.inj hsplit
        rw [coneRows, Nat.add_assoc, if_neg (by omega), Nat.add_sub_cancel_left]
        exact ih.2 ⟨before, n, after, hrest, k, hk, rfl⟩

/-- What holds of the entries of all cones of a kind holds of all rows of that kind. -/
theorem forall_kindAt_iff {cones : List ConeBlock} {kind : ConeKind} {s : Vec ℝ} {P : ℝ → Prop} :
    (∀ i, kindAt cones i = some kind → P (s.entry i)) ↔
      ∀ before n after, cones = before ++ ⟨kind, n⟩ :: after →
        ∀ k < (s.slice (coneRows before) n).size, P ((s.slice (coneRows before) n).entry k) := by
  constructor
  · intro h before n after hsplit k hk
    rw [Vec.size_slice] at hk
    rw [Vec.entry_slice hk]
    exact h _ (kindAt_eq_some_iff.2 ⟨before, n, after, hsplit, k, hk, rfl⟩)
  · intro h i hi
    obtain ⟨before, n, after, hsplit, k, hk, rfl⟩ := kindAt_eq_some_iff.1 hi
    have hentry := h before n after hsplit k (by rwa [Vec.size_slice])
    rwa [Vec.entry_slice hk] at hentry

/-! ### Programs -/

namespace ConeProgram

/-- A point whose residual is in the cones up to `ε`: each equation is off by at most `ε`, each
inequality is missed by at most `ε`, and in each second-order cone the rows behind the first are at
most `ε` longer than the first. -/
structure FeasibleWithin (p : ConeProgram ℝ) (x : Vec ℝ) (ε : ℝ) : Prop where
  zero : ∀ i, kindAt p.cones i = some .zero → |(p.residual x).entry i| ≤ ε
  nonnegative : ∀ i, kindAt p.cones i = some .nonnegative → -ε ≤ (p.residual x).entry i
  secondOrder : ∀ before n after, p.cones = before ++ ⟨.secondOrder, n⟩ :: after →
    ((p.residual x).slice (coneRows before + 1) (n - 1)).norm ≤
      (p.residual x).entry (coneRows before) + ε

variable {p : ConeProgram ℝ} {x : Vec ℝ} {ε : ℝ}

/-- The rows of a second-order cone, seen from its first row. -/
theorem containsWithin_secondOrder_slice {s : Vec ℝ} {row n : ℕ} (hn : 1 ≤ n) :
    ConeKind.secondOrder.ContainsWithin ε (s.slice row n) ↔
      (s.slice (row + 1) (n - 1)).norm ≤ s.entry row + ε := by
  have htail : (s.slice row n).slice 1 (n - 1) = s.slice (row + 1) (n - 1) := by
    refine Vec.ext_entry (by simp only [Vec.size_slice]) fun i hi => ?_
    rw [Vec.size_slice] at hi
    rw [Vec.entry_slice hi, Vec.entry_slice (by omega), Vec.entry_slice hi, Nat.add_assoc]
  have hhead : (s.slice row n).entry 0 = s.entry row := Vec.entry_slice hn
  rw [ConeKind.ContainsWithin, Vec.size_slice, htail, hhead]

/-- Feasible up to `ε`, cone by cone. -/
theorem feasibleWithin_iff_forall_split (hdim : ∀ c ∈ p.cones, 1 ≤ c.dim) :
    p.FeasibleWithin x ε ↔ ∀ before c after, p.cones = before ++ c :: after →
      c.kind.ContainsWithin ε ((p.residual x).slice (coneRows before) c.dim) := by
  have hpos {before after : List ConeBlock} {c : ConeBlock}
      (hsplit : p.cones = before ++ c :: after) : 1 ≤ c.dim :=
    hdim c (by simp [hsplit])
  let s := p.residual x
  have hzeros : (∀ i, kindAt p.cones i = some .zero → |s.entry i| ≤ ε) ↔ _ :=
    forall_kindAt_iff (P := fun y => |y| ≤ ε)
  have hnonnegs : (∀ i, kindAt p.cones i = some .nonnegative → -ε ≤ s.entry i) ↔ _ :=
    forall_kindAt_iff (P := fun y => -ε ≤ y)
  constructor
  · rintro ⟨hzero, hnonneg, hsecond⟩ before ⟨kind, n⟩ after hsplit
    cases kind with
    | zero => exact hzeros.1 hzero before n after hsplit
    | nonnegative => exact hnonnegs.1 hnonneg before n after hsplit
    | secondOrder =>
      exact (containsWithin_secondOrder_slice (hpos hsplit)).2 (hsecond before n after hsplit)
  · intro h
    refine ⟨hzeros.2 fun before n after => h before ⟨.zero, n⟩ after,
      hnonnegs.2 fun before n after => h before ⟨.nonnegative, n⟩ after,
      fun before n after hsplit => ?_⟩
    exact (containsWithin_secondOrder_slice (hpos hsplit)).1 (h before _ after hsplit)

/-- The largest violation of a point is at most `ε` exactly when it is feasible up to `ε`. -/
theorem maxViolation_le_iff (hdim : ∀ c ∈ p.cones, 1 ≤ c.dim) (hε : 0 ≤ ε) :
    p.maxViolation x ≤ ε ↔ p.FeasibleWithin x ε := by
  rw [maxViolation, violationFrom_le_iff hε, and_iff_right hε, feasibleWithin_iff_forall_split hdim]
  simp only [Nat.zero_add]

theorem maxViolation_nonneg (p : ConeProgram ℝ) (x : Vec ℝ) : 0 ≤ p.maxViolation x :=
  le_violationFrom _ _ _

/-- The largest violation is zero exactly at feasible points. -/
theorem maxViolation_eq_zero_iff (hrows : coneRows p.cones = p.b.size) :
    p.maxViolation x = 0 ↔ p.Feasible x := by
  have hsize : coneRows p.cones = (p.residual x).size := hrows.trans (Vec.size_sub _ _).symm
  rw [← (maxViolation_nonneg p x).ge_iff_eq', maxViolation, violationFrom_le_iff le_rfl,
    and_iff_right le_rfl, Feasible, InProduct, and_iff_right hsize, inConesFrom_iff_forall_split]
  simp only [ConeKind.containsWithin_zero]

end ConeProgram

/-! ### The program of a tick -/

namespace TickData

/-- A decision that moves by the equations of motion up to a generalized force of `ε` in each row,
and misses the least normal forces and the effort limits by at most `ε`. -/
structure MeetsWithin (d : TickData ℝ) (s : Settings ℝ) (z : Decision) (ε : ℝ) : Prop where
  /-- `M v̇ + c` against `B u + Σ Jᵢᵀ λᵢ + J_hᵀ λ_h`. -/
  dynamics : ∀ k < d.numVelocities,
    |(d.massMatrix.mulVec z.accelerations).entry k + d.bias.entry k -
      ((d.actuation.mulVec z.inputs).entry k + d.contactTorque z k + d.loopTorque z k)| ≤ ε
  leastNormal : ∀ e ∈ d.numbered, s.minNormalForce - ε ≤ e.1.1.frame.normal.dot (z.force e.2)
  effort : ∀ limits ∈ d.effortLimits, ∀ k < d.numActuators,
    |z.inputs.entry k| ≤ limits.entry k + ε

variable {d : TickData ℝ} {nv nu : ℕ} {a : Assembler ℝ} {terms : List (TaskTerm ℝ)} {x : Vec ℝ}
  {ε : ℝ}

theorem dynamicsBlock_mem_blocks (s : Settings ℝ) : d.dynamicsBlock (d.layout s) ∈ d.blocks s := by
  simp [blocks]

theorem mem_blocks_of_mem_normalBlocks {s : Settings ℝ}
    {e : (ContactPoint ℝ × PointKinematics ℝ) × ℕ} (he : e ∈ d.numbered) {c : ConstraintBlock ℝ}
    (hc : c ∈ normalBlocks (d.layout s) s e) : c ∈ d.blocks s := by
  have hnormal : c ∈ d.numbered.flatMap (normalBlocks (d.layout s) s) :=
    List.mem_flatMap.2 ⟨e, he, hc⟩
  simp only [blocks, List.mem_append]
  tauto

theorem mem_blocks_of_mem_effortBlocks {s : Settings ℝ} {c : ConstraintBlock ℝ}
    (hc : c ∈ d.effortBlocks (d.layout s)) : c ∈ d.blocks s := by
  simp only [blocks, List.mem_append]
  tauto

/-- The least normal force comes first, whatever the friction cone. -/
theorem leastNormal_mem_normalBlocks (l : VariableLayout) (s : Settings ℝ)
    (e : (ContactPoint ℝ × PointKinematics ℝ) × ℕ) :
    let row := e.1.1.frame.minNormalRow s.minNormalForce
    ConstraintBlock.mk .nonnegative (forceRows l e.2 (.ofFn 1 3 fun _ j => row.1.component j))
      (.ofList [row.2]) ∈ normalBlocks l s e := by
  intro row
  rw [normalBlocks]
  cases contactCone s e.1.1 <;> exact List.mem_cons_self

/-- A point that is feasible up to `ε` meets the equations of motion, the least normal forces and
the effort limits up to `ε`. -/
theorem meetsWithin_of_feasibleWithin (h : d.Shaped nv nu)
    (hx : (d.program a terms).FeasibleWithin x ε) :
    d.MeetsWithin a.settings ((d.layout a.settings).split x) ε := by
  let l := d.layout a.settings
  have hinequality {c : ConstraintBlock ℝ} (hc : c ∈ d.blocks a.settings)
      (hkind : c.kind = .nonnegative) {k : ℕ} (hk : k < c.A.rows) :
      -ε ≤ (c.residual x).entry k := by
    obtain ⟨i, hi, hentry⟩ := exists_row h terms x hc hk
    rw [← hentry]
    exact hx.nonnegative i (hkind ▸ hi)
  refine ⟨fun k hk => ?_, fun e he => ?_, fun limits hlimits k hk => ?_⟩
  · have hrows := (shape_dynamicsBlock (d := d) l).1
    obtain ⟨i, hi, hentry⟩ :=
      exists_row h terms x (dynamicsBlock_mem_blocks a.settings) (hk.trans_eq hrows.symm)
    have hzero := hx.zero i hi
    rwa [hentry, entry_residual_dynamicsBlock h, abs_sub_comm] at hzero
  · have hstop := stop_contact_le (s := a.settings) (lt_of_mem_numbered he)
    have hrow := hinequality
      (mem_blocks_of_mem_normalBlocks he (leastNormal_mem_normalBlocks l a.settings e)) rfl
      Nat.one_pos
    rw [entry_residual_leastNormal _ _ hstop] at hrow
    linarith
  · obtain ⟨c, hc, hkind, hsize, hrows⟩ := exists_effortBlocks_eq hlimits a.settings x
    have hmem : c ∈ d.blocks a.settings :=
      mem_blocks_of_mem_effortBlocks (hc ▸ List.mem_singleton_self c)
    rw [(h.conforms_of_mem_blocks a.settings c hmem).size_residual] at hsize
    have hupper := hinequality hmem hkind (k := k) (by omega)
    have hlower := hinequality hmem hkind (k := d.numActuators + k) (by omega)
    rw [(hrows k hk).1] at hupper
    rw [(hrows k hk).2] at hlower
    exact abs_le.2 ⟨by linarith, by linarith⟩

/-- The cones of a tick have rows, and cover the rows of its program. -/
theorem one_le_dim_of_mem_cones (d : TickData ℝ) (a : Assembler ℝ) (terms : List (TaskTerm ℝ)) :
    ∀ c ∈ (d.program a terms).cones, 1 ≤ c.dim :=
  ConstraintStack.dim_pos_of_mem_cones fun _ hc => (ConstraintStack.mem_blocks_pushAll.1 hc).2

/-- The largest violation of a point bounds by how much it misses what the robot can do. -/
theorem meetsWithin_maxViolation (h : d.Shaped nv nu) (a : Assembler ℝ) (terms : List (TaskTerm ℝ))
    (x : Vec ℝ) : d.MeetsWithin a.settings ((d.layout a.settings).split x)
      ((d.program a terms).maxViolation x) :=
  meetsWithin_of_feasibleWithin h <|
    (ConeProgram.maxViolation_le_iff (d.one_le_dim_of_mem_cones a terms)
      (ConeProgram.maxViolation_nonneg _ _)).1 le_rfl

/-- Decisions that are alike meet the same within the same bound. -/
theorem MeetsWithin.of_alike {s s' : Settings ℝ} {z z' : Decision} (h : d.MeetsWithin s z ε)
    (halike : d.Alike s s' z z') (hleast : s'.minNormalForce = s.minNormalForce) :
    d.MeetsWithin s' z' ε where
  dynamics k hk := by
    rw [halike.accelerations, halike.inputs, halike.contactTorque, halike.loopTorque]
    exact h.dynamics k hk
  leastNormal e he := by
    rw [halike.force e.2 (lt_of_mem_numbered he), hleast]
    exact h.leastNormal e he
  effort limits hlimits k hk := by
    rw [halike.inputs]
    exact h.effort limits hlimits k hk

end TickData

end WholeBody
