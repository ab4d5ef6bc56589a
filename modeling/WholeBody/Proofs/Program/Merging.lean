import Mathlib
import WholeBody.Proofs.Program.Cones
import WholeBody.Proofs.Program.Stack

/-!
# Stacking and merging

A stack keeps all that is pushed on it. Its rows are those of the pushed blocks, one block under the
other, and its cones are as few as they can be: neighbouring blocks share a cone whenever both are
equations or both are inequalities, and a second-order block never does.

## Main definitions

* `ConeBlock.Mergeable` — neighbouring cones that share one.
* `ConeBlock.mergeLast` — what one push does to the cones.

## Main statements

* `ConstraintStack.cones_push` — the cones after one push.
* `ConstraintStack.toRows_matrix`, `ConstraintStack.toList_bounds` — the rows of a stack.
* `ConstraintStack.isChain_cones`, `ConstraintStack.filter_secondOrder_cones` — the cones of a stack.
* `stack_keeps_constraints` — every sequence of pushes.
-/

namespace WholeBody

/-! ### Cones -/

namespace ConeBlock

/-- Neighbouring cones that share one: both are equations, or both are inequalities. -/
def Mergeable (c d : ConeBlock) : Prop := c.kind = d.kind ∧ c.kind ≠ .secondOrder

variable {b c d : ConeBlock} {cs rest : List ConeBlock}

theorem merge_of_mergeable (h : c.Mergeable d) :
    c.merge (d :: rest) = ⟨c.kind, c.dim + d.dim⟩ :: rest :=
  if_pos h

theorem merge_of_not_mergeable (h : ¬ c.Mergeable d) : c.merge (d :: rest) = c :: d :: rest :=
  if_neg h

/-- The first cone keeps its kind. -/
theorem exists_merge_eq_cons (c : ConeBlock) (cs : List ConeBlock) :
    ∃ d rest, c.merge cs = d :: rest ∧ d.kind = c.kind := by
  cases cs with
  | nil => exact ⟨c, [], rfl, rfl⟩
  | cons d rest =>
    by_cases h : c.Mergeable d
    · exact ⟨_, rest, merge_of_mergeable h, rfl⟩
    · exact ⟨c, d :: rest, merge_of_not_mergeable h, rfl⟩

/-- Merging leaves no neighbours that could be merged. -/
theorem isChain_merge (c : ConeBlock) (h : cs.IsChain fun c d => ¬ c.Mergeable d) :
    (c.merge cs).IsChain fun c d => ¬ c.Mergeable d := by
  cases cs with
  | nil => exact .singleton c
  | cons d rest =>
    by_cases hcd : c.Mergeable d
    · rw [merge_of_mergeable hcd]
      cases rest with
      | nil => exact .singleton _
      | cons e rest =>
        obtain ⟨hde, hrest⟩ := List.isChain_cons_cons.1 h
        -- The merged cone is of the kind of `d`, which could not be merged with `e`.
        refine List.isChain_cons_cons.2 ⟨fun hce => hde ?_, hrest⟩
        exact ⟨hcd.1.symm.trans hce.1, hcd.1 ▸ hcd.2⟩
    · rw [merge_of_not_mergeable hcd]
      exact List.isChain_cons_cons.2 ⟨hcd, h⟩

/-- Merging does not touch second-order cones. -/
theorem filter_secondOrder_merge (c : ConeBlock) (cs : List ConeBlock) :
    (c.merge cs).filter (·.kind = .secondOrder) = (c :: cs).filter (·.kind = .secondOrder) := by
  cases cs with
  | nil => rfl
  | cons d rest =>
    by_cases h : c.Mergeable d
    · have hd : d.kind ≠ .secondOrder := h.1 ▸ h.2
      simp [merge_of_mergeable h, h.2, hd]
    · rw [merge_of_not_mergeable h]

/-- Puts a block behind merged cones: the last one grows, or there is a new one. -/
def mergeLast : List ConeBlock → ConeBlock → List ConeBlock
  | [], c => [c]
  | [d], c => d.merge [c]
  | d :: e :: rest, c => d :: mergeLast (e :: rest) c

/-- It makes no difference which of two blocks is merged first, the one in front or the one
behind. -/
theorem mergeLast_merge (b c : ConeBlock) (cs : List ConeBlock) :
    mergeLast (b.merge cs) c = b.merge (mergeLast cs c) := by
  cases cs with
  | nil => rfl
  | cons d rest =>
    by_cases hbd : b.Mergeable d
    · cases rest with
      | cons e rest => simp only [merge_of_mergeable hbd, mergeLast]
      | nil =>
        rw [merge_of_mergeable hbd, mergeLast, mergeLast]
        by_cases hdc : d.Mergeable c
        · have hbc : (ConeBlock.mk b.kind (b.dim + d.dim)).Mergeable c :=
            ⟨hbd.1.trans hdc.1, hbd.2⟩
          have hb : b.Mergeable ⟨d.kind, d.dim + c.dim⟩ := hbd
          rw [merge_of_mergeable hbc, merge_of_mergeable hdc, merge_of_mergeable hb,
            Nat.add_assoc]
        · have hbc : ¬ (ConeBlock.mk b.kind (b.dim + d.dim)).Mergeable c :=
            fun h => hdc ⟨hbd.1.symm.trans h.1, hbd.1 ▸ hbd.2⟩
          rw [merge_of_not_mergeable hbc, merge_of_not_mergeable hdc, merge_of_mergeable hbd]
    · rw [merge_of_not_mergeable hbd, mergeLast]
      cases rest with
      | cons e rest => rw [mergeLast, merge_of_not_mergeable hbd]
      | nil =>
        -- Whatever becomes of `d` and `c`, the first cone is of the kind of `d`.
        obtain ⟨e, rest, hmerge, hkind⟩ := exists_merge_eq_cons d [c]
        have hbe : ¬ b.Mergeable e := fun h => hbd ⟨h.1.trans hkind, h.2⟩
        rw [mergeLast, hmerge, merge_of_not_mergeable hbe]

end ConeBlock

namespace ConstraintStack

variable {α : Type} {s : ConstraintStack α}

/-! ### One push -/

theorem blocks_push (s : ConstraintStack α) (c : ConstraintBlock α) :
    (s.push c).blocks = s.blocks ++ [c].filter (·.A.rows ≠ 0) :=
  blocks_pushAll s [c]

theorem numRows_push (s : ConstraintStack α) (c : ConstraintBlock α) :
    (s.push c).numRows = s.numRows + c.A.rows := by
  rw [numRows, blocks_push, rowsOf_append, numRows]
  by_cases hc : c.A.rows = 0 <;> simp [hc, rowsOf]

/-- A push lets the last cone grow or adds one. -/
theorem cones_push (s : ConstraintStack α) (c : ConstraintBlock α) :
    (s.push c).cones = if c.A.rows = 0 then s.cones else ConeBlock.mergeLast s.cones c.cone := by
  have hlast (bs : List (ConstraintBlock α)) :
      ((bs ++ [c]).map (·.cone)).foldr ConeBlock.merge [] =
        ConeBlock.mergeLast ((bs.map (·.cone)).foldr ConeBlock.merge []) c.cone := by
    induction bs with
    | nil => rfl
    | cons b bs ih =>
      rw [List.cons_append, List.map_cons, List.foldr_cons, ih, List.map_cons, List.foldr_cons,
        ConeBlock.mergeLast_merge]
  rw [cones_eq, blocks_push]
  by_cases hc : c.A.rows = 0
  · simp [hc, cones_eq]
  · simpa [hc, cones_eq] using hlast s.blocks

/-! ### All pushes -/

theorem numRows_pushAll (s : ConstraintStack α) (cs : List (ConstraintBlock α)) :
    (s.pushAll cs).numRows = s.numRows + (cs.map (·.A.rows)).sum := by
  rw [pushAll]
  induction cs generalizing s with
  | nil => rfl
  | cons c cs ih =>
    rw [List.foldl_cons, ih, numRows_push, List.map_cons, List.sum_cons, Nat.add_assoc]

/-- No two neighbouring cones could be merged. -/
theorem isChain_cones (s : ConstraintStack α) : s.cones.IsChain fun c d => ¬ c.Mergeable d := by
  rw [cones_eq]
  induction s.blocks with
  | nil => exact .nil
  | cons c rest ih => exact ConeBlock.isChain_merge c.cone ih

/-- The second-order cones are those of the blocks. -/
theorem filter_secondOrder_cones (s : ConstraintStack α) :
    s.cones.filter (·.kind = .secondOrder) =
      (s.blocks.map (·.cone)).filter (·.kind = .secondOrder) := by
  rw [cones_eq]
  induction s.blocks with
  | nil => rfl
  | cons c rest ih =>
    rw [List.map_cons, List.foldr_cons, ConeBlock.filter_secondOrder_merge, List.filter_cons, ih,
      List.filter_cons]

/-- Going through the rows of a stack is going through the rows of its blocks. -/
theorem map_locate {β : Type} (f : Option (ConstraintBlock α × ℕ) → β)
    (bs : List (ConstraintBlock α)) : (List.range (rowsOf bs)).map (fun i => f (locate bs i)) =
      bs.flatMap fun c => (List.range c.A.rows).map fun k => f (some (c, k)) := by
  induction bs with
  | nil => rfl
  | cons c rest ih =>
    have hhead : (List.range c.A.rows).map (fun i => f (locate (c :: rest) i)) =
        (List.range c.A.rows).map fun k => f (some (c, k)) := by
      refine List.map_congr_left fun i hi => ?_
      rw [locate, if_pos (List.mem_range.1 hi)]
    have htail (i : ℕ) : locate (c :: rest) (c.A.rows + i) = locate rest i := by
      rw [locate, if_neg (by omega), Nat.add_sub_cancel_left]
    rw [rowsOf, List.range_add, List.map_append, hhead, List.map_map, List.flatMap_cons, ← ih]
    simp only [Function.comp_def, htail]

/-- Blocks without rows have no part in what is collected over all rows. -/
theorem flatMap_blocks_pushAll {β : Type} {n : ℕ} {cs : List (ConstraintBlock α)}
    (f : ConstraintBlock α → ℕ → β) :
    (((empty n).pushAll cs).blocks.flatMap fun c => (List.range c.A.rows).map (f c)) =
      cs.flatMap fun c => (List.range c.A.rows).map (f c) := by
  rw [blocks_pushAll, empty, List.nil_append]
  induction cs with
  | nil => rfl
  | cons c cs ih =>
    by_cases hc : c.A.rows = 0
    · simpa [hc] using ih
    · simpa [hc] using ih

variable [Scalar α] {n : ℕ} {cs : List (ConstraintBlock α)}

/-- The rows of a stack are those of the pushed blocks, one block under the other. -/
theorem toRows_matrix (h : ∀ c ∈ cs, c.Conforms n) :
    ((empty n).pushAll cs).matrix.toRows = cs.flatMap (·.A.toRows) := by
  let s := (empty n).pushAll cs
  have hn : s.numVariables = n := numVariables_pushAll _ _
  let f (e : Option (ConstraintBlock α × ℕ)) : List α :=
    (List.range n).map fun j => e.elim 0 fun l => l.1.A.entry l.2 j
  have hrow : ∀ i ∈ List.range s.numRows, s.matrix.row i = f (locate s.blocks i) := by
    intro i hi
    rw [Mat.row_eq_map, matrix, Mat.cols_ofFn, hn]
    refine List.map_congr_left fun j hj => ?_
    rw [Mat.entry_ofFn_of_lt (List.mem_range.1 hi) (List.mem_range.1 hj)]
    cases locate s.blocks i <;> rfl
  have hblock : ∀ c ∈ cs, (List.range c.A.rows).map (fun k => f (some (c, k))) = c.A.toRows := by
    intro c hc
    rw [Mat.toRows_eq_map]
    refine List.map_congr_left fun k _ => ?_
    rw [Mat.row_eq_map, (h c hc).1]
    rfl
  calc s.matrix.toRows = (List.range s.numRows).map fun i => f (locate s.blocks i) :=
        (Mat.toRows_eq_map _).trans (List.map_congr_left hrow)
    _ = cs.flatMap fun c => (List.range c.A.rows).map fun k => f (some (c, k)) :=
        (map_locate f s.blocks).trans (flatMap_blocks_pushAll _)
    _ = cs.flatMap (·.A.toRows) := List.flatMap_congr hblock

/-- The bounds of a stack are those of the pushed blocks, one after the other. -/
theorem toList_bounds (h : ∀ c ∈ cs, c.Conforms n) :
    ((empty n).pushAll cs).bounds.toList = cs.flatMap (·.b.toList) := by
  let s := (empty n).pushAll cs
  let f (e : Option (ConstraintBlock α × ℕ)) : α := e.elim 0 fun l => l.1.b.entry l.2
  have hentry : ∀ i ∈ List.range s.numRows, s.bounds.entry i = f (locate s.blocks i) := by
    intro i hi
    rw [bounds, Vec.entry_ofFn_of_lt (List.mem_range.1 hi)]
    cases locate s.blocks i <;> rfl
  have hblock : ∀ c ∈ cs, (List.range c.A.rows).map (fun k => f (some (c, k))) = c.b.toList := by
    intro c hc
    rw [Vec.toList_eq_map, (h c hc).2]
    rfl
  calc s.bounds.toList = (List.range s.numRows).map fun i => f (locate s.blocks i) := by
        rw [Vec.toList_eq_map, bounds, Vec.size_ofFn]
        exact List.map_congr_left hentry
    _ = cs.flatMap fun c => (List.range c.A.rows).map fun k => f (some (c, k)) :=
        (map_locate f s.blocks).trans (flatMap_blocks_pushAll _)
    _ = cs.flatMap (·.b.toList) := List.flatMap_congr hblock

end ConstraintStack

theorem sum_dim_eq_coneRows (cs : List ConeBlock) : (cs.map (·.dim)).sum = coneRows cs := by
  induction cs with
  | nil => rfl
  | cons c rest ih => rw [List.map_cons, List.sum_cons, ih, coneRows]

/-- Every sequence of pushes. The stack holds the rows of the pushed blocks in push order, a point
lies in its cones exactly when it lies in the cone of each block, its cones are not empty and cover
its rows, no two neighbours could be merged, and the second-order cones are those of the blocks that
have rows. -/
theorem stack_keeps_constraints {n : ℕ} {cs : List (ConstraintBlock ℝ)}
    (h : ∀ c ∈ cs, c.Conforms n) :
    let s := (ConstraintStack.empty n).pushAll cs
    (s.matrix.cols = n ∧ s.matrix.toRows = cs.flatMap (·.A.toRows) ∧
        s.bounds.toList = cs.flatMap (·.b.toList)) ∧
      (∀ x : Vec ℝ, InProduct s.cones (s.bounds - s.matrix.mulVec x) ↔
        ∀ c ∈ cs, c.kind.Contains (c.b - c.A.mulVec x)) ∧
      (∀ e ∈ s.cones, 1 ≤ e.dim) ∧
      ((s.cones.map (·.dim)).sum = s.matrix.rows ∧ s.matrix.rows = s.numRows ∧
        s.numRows = (cs.map (·.A.rows)).sum) ∧
      s.cones.IsChain (fun c d => ¬ c.Mergeable d) ∧
      s.cones.filter (·.kind = .secondOrder) =
        (cs.filter fun c => c.kind = .secondOrder ∧ c.A.rows ≠ 0).map (·.cone) := by
  intro s
  have hblocks : s.blocks = cs.filter (·.A.rows ≠ 0) := ConstraintStack.blocks_pushAll _ _
  refine ⟨⟨ConstraintStack.numVariables_pushAll _ _, ConstraintStack.toRows_matrix h,
    ConstraintStack.toList_bounds h⟩, fun x => ConstraintStack.inProduct_pushAll_iff h, ?_,
    ⟨?_, rfl, ?_⟩, s.isChain_cones, ?_⟩
  · exact ConstraintStack.dim_pos_of_mem_cones
      fun c hc => (ConstraintStack.mem_blocks_pushAll.1 hc).2
  · exact (sum_dim_eq_coneRows _).trans (ConstraintStack.coneRows_cones s)
  · exact (ConstraintStack.numRows_pushAll _ cs).trans (Nat.zero_add _)
  · rw [ConstraintStack.filter_secondOrder_cones, hblocks, List.filter_map, List.filter_filter]
    simp [ConstraintBlock.cone]

/-- Two equations, two blocks of inequalities of which one has no rows, and two second-order
cones. -/
theorem stack_keeps_constraints_six_blocks :
    let block (kind : ConeKind) (rows : List (List ℝ)) (b : List ℝ) : ConstraintBlock ℝ :=
      ⟨kind, .ofFn rows.length 2 fun i j => (rows.getD i []).getD j 0, .ofList b⟩
    let cs := [block .zero [[1, 0]] [1], block .zero [[0, 1]] [2], block .nonnegative [] [],
      block .nonnegative [[1, 1]] [5], block .secondOrder [[1, 0], [0, 1]] [0, 0],
      block .secondOrder [[1, 0], [0, 1]] [0, 0]]
    let s := (ConstraintStack.empty 2).pushAll cs
    (∀ c ∈ cs, c.Conforms 2) ∧
      (∀ x : Vec ℝ, InProduct s.cones (s.bounds - s.matrix.mulVec x) ↔
        ∀ c ∈ cs, c.kind.Contains (c.b - c.A.mulVec x)) ∧
      s.cones.IsChain (fun c d => ¬ c.Mergeable d) ∧
      s.cones = [⟨.zero, 2⟩, ⟨.nonnegative, 1⟩, ⟨.secondOrder, 2⟩, ⟨.secondOrder, 2⟩] := by
  intro block cs s
  have h : ∀ c ∈ cs, c.Conforms 2 := by
    simp [cs, block, ConstraintBlock.Conforms]
  obtain ⟨-, hcones, -, -, hchain, -⟩ := stack_keeps_constraints h
  exact ⟨h, hcones, hchain, rfl⟩

end WholeBody
