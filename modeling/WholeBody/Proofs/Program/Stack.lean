import Mathlib
import WholeBody.Proofs.Linear.Entry
import WholeBody.Proofs.Program.Shape

/-!
# Feasible points of a stack

A point is feasible for a program when the residual `b - A x` lies in the product of its cones. For
a stack of blocks this says that every block holds, whatever cones were merged on the way.

## Main statements

* `ConeBlock.inConesFrom_merge` — merging cones does not change their product.
* `ConstraintStack.inProduct_pushAll_iff` — a stack of pushed blocks holds exactly when each does.
-/

namespace WholeBody

/-- The vectors of a cone. -/
def ConeKind.Contains : ConeKind → Vec ℝ → Prop
  | zero, s => ∀ i < s.size, s.entry i = 0
  | nonnegative, s => ∀ i < s.size, 0 ≤ s.entry i
  | secondOrder, s => (s.slice 1 (s.size - 1)).norm ≤ s.entry 0

/-- The rows from `row` on lie in the given cones, one cone after the other. -/
def InConesFrom (s : Vec ℝ) : List ConeBlock → ℕ → Prop
  | [], _ => True
  | c :: rest, row => c.kind.Contains (s.slice row c.dim) ∧ InConesFrom s rest (row + c.dim)

/-- The product of cones in row order. -/
def InProduct (cones : List ConeBlock) (s : Vec ℝ) : Prop :=
  coneRows cones = s.size ∧ InConesFrom s cones 0

/-- The residual of a point lies in the product of the cones. -/
def ConeProgram.Feasible (p : ConeProgram ℝ) (x : Vec ℝ) : Prop :=
  InProduct p.cones (p.residual x)

/-! ### Merging -/

/-- A cone that looks at each entry by itself splits into its first and its last rows. -/
theorem ConeKind.contains_slice_add {kind : ConeKind} (hkind : kind ≠ .secondOrder) (s : Vec ℝ)
    (row m n : ℕ) : kind.Contains (s.slice row (m + n)) ↔
      kind.Contains (s.slice row m) ∧ kind.Contains (s.slice (row + m) n) := by
  have hsplit (P : ℝ → Prop) : (∀ i < m + n, P ((s.slice row (m + n)).entry i)) ↔
      (∀ i < m, P ((s.slice row m).entry i)) ∧ ∀ i < n, P ((s.slice (row + m) n).entry i) := by
    constructor
    · intro h
      refine ⟨fun i hi => ?_, fun i hi => ?_⟩
      · have hentry := h i (by omega)
        rw [Vec.entry_slice (by omega)] at hentry
        rwa [Vec.entry_slice hi]
      · have hentry := h (m + i) (by omega)
        rw [Vec.entry_slice (by omega)] at hentry
        rwa [Vec.entry_slice hi, Nat.add_assoc]
    · rintro ⟨hfirst, hlast⟩ i hi
      rw [Vec.entry_slice hi]
      by_cases him : i < m
      · have hentry := hfirst i him
        rwa [Vec.entry_slice him] at hentry
      · have hentry := hlast (i - m) (by omega)
        rwa [Vec.entry_slice (by omega), Nat.add_assoc, Nat.add_sub_cancel' (by omega)] at hentry
  cases kind with
  | zero => simpa only [ConeKind.Contains, Vec.size_slice] using hsplit (· = 0)
  | nonnegative => simpa only [ConeKind.Contains, Vec.size_slice] using hsplit (0 ≤ ·)
  | secondOrder => exact absurd rfl hkind

theorem ConeBlock.inConesFrom_merge (c : ConeBlock) (cs : List ConeBlock) (s : Vec ℝ) (row : ℕ) :
    InConesFrom s (c.merge cs) row ↔ InConesFrom s (c :: cs) row := by
  cases cs with
  | nil => rfl
  | cons d rest =>
    rw [ConeBlock.merge]
    split
    · rename_i h
      obtain ⟨hsame, hkind⟩ := h
      simp only [InConesFrom, ConeKind.contains_slice_add hkind, ← hsame, and_assoc,
        ← Nat.add_assoc]
    · rfl

/-! ### Blocks -/

namespace ConstraintBlock

/-- The vector `b - A x` of a block. -/
noncomputable def residual (c : ConstraintBlock ℝ) (x : Vec ℝ) : Vec ℝ := c.b - c.A.mulVec x

/-- The rows of a block lie in its cone. -/
def Holds (c : ConstraintBlock ℝ) (x : Vec ℝ) : Prop := c.kind.Contains (c.residual x)

variable {c : ConstraintBlock ℝ} {x : Vec ℝ} {n : ℕ}

theorem Conforms.size_residual (h : c.Conforms n) : (c.residual x).size = c.A.rows :=
  (Vec.size_sub _ _).trans h.2

theorem Conforms.entry_residual (h : c.Conforms n) (i : ℕ) :
    (c.residual x).entry i = c.b.entry i - (c.A.mulVec x).entry i :=
  Vec.entry_sub (by rw [Mat.size_mulVec, h.2])

/-- A block without rows always holds. -/
theorem Conforms.holds_of_rows_eq_zero (h : c.Conforms n) (hrows : c.A.rows = 0) : c.Holds x := by
  have hsize : (c.residual x).size = 0 := h.size_residual.trans hrows
  rw [Holds]
  cases c.kind with
  | zero => exact fun i hi => absurd hi (by omega)
  | nonnegative => exact fun i hi => absurd hi (by omega)
  | secondOrder =>
    have hfirst : (c.residual x).entry 0 = 0 := Vec.entry_of_size_le (by omega)
    rw [ConeKind.Contains, hsize, hfirst]
    exact (Real.sqrt_eq_zero_of_nonpos le_rfl).le

end ConstraintBlock

namespace ConstraintStack

variable {s : ConstraintStack ℝ} {x : Vec ℝ}

theorem of_locate_eq_some {bs : List (ConstraintBlock ℝ)} {i : ℕ} {c : ConstraintBlock ℝ} {k : ℕ}
    (h : locate bs i = some (c, k)) : i < rowsOf bs ∧ c ∈ bs := by
  induction bs generalizing i with
  | nil => cases h
  | cons b rest ih =>
    rw [locate] at h
    rw [rowsOf]
    split at h
    · rename_i hi
      cases h
      exact ⟨by omega, List.mem_cons_self⟩
    · rename_i hi
      obtain ⟨hlt, hmem⟩ := ih h
      exact ⟨by omega, List.mem_cons_of_mem _ hmem⟩

theorem locate_head {b : ConstraintBlock ℝ} {rest : List (ConstraintBlock ℝ)} {i : ℕ}
    (hi : i < b.A.rows) : locate (b :: rest) i = some (b, i) :=
  if_pos hi

theorem locate_tail (b : ConstraintBlock ℝ) (rest : List (ConstraintBlock ℝ)) (i : ℕ) :
    locate (b :: rest) (b.A.rows + i) = locate rest i := by
  rw [locate, if_neg (by omega), Nat.add_sub_cancel_left]

/-- A row of the stack is a row of the block that holds it. -/
theorem entry_residual_of_locate (h : s.Conforms) {i k : ℕ} {c : ConstraintBlock ℝ}
    (hloc : locate s.blocks i = some (c, k)) :
    (s.bounds - s.matrix.mulVec x).entry i = (c.residual x).entry k := by
  obtain ⟨hlt, hc⟩ := of_locate_eq_some hloc
  obtain ⟨hcols, hrows⟩ := h c hc
  have hi : i < s.numRows := hlt
  have hb : s.bounds.entry i = c.b.entry k := by
    rw [bounds, Vec.entry_ofFn_of_lt hi, hloc]
  have hA : (s.matrix.mulVec x).entry i = (c.A.mulVec x).entry k := by
    rw [Mat.entry_mulVec, Mat.entry_mulVec, hcols]
    refine Finset.sum_congr rfl fun j hj => ?_
    rw [matrix, Mat.entry_ofFn_of_lt hi (Finset.mem_range.1 hj), hloc]
  have hsize : (s.matrix.mulVec x).size ≤ s.bounds.size := by
    rw [Mat.size_mulVec, bounds, Vec.size_ofFn]
    exact le_rfl
  rw [Vec.entry_sub hsize, hb, hA, ConstraintBlock.Conforms.entry_residual ⟨hcols, hrows⟩]

/-- Rows that are those of some blocks lie in the merged cones of the blocks exactly when every
block holds. -/
theorem inConesFrom_iff {n : ℕ} {bs : List (ConstraintBlock ℝ)} (hbs : ∀ c ∈ bs, c.Conforms n)
    {r : Vec ℝ} {row : ℕ}
    (hr : ∀ i c k, locate bs i = some (c, k) → r.entry (row + i) = (c.residual x).entry k) :
    InConesFrom r ((bs.map fun c => (⟨c.kind, c.A.rows⟩ : ConeBlock)).foldr ConeBlock.merge [])
      row ↔ ∀ c ∈ bs, c.Holds x := by
  induction bs generalizing row with
  | nil => exact iff_of_true trivial nofun
  | cons b rest ih =>
    obtain ⟨hb, hrest⟩ := List.forall_mem_cons.1 hbs
    have hslice : r.slice row b.A.rows = b.residual x := by
      rw [← hb.size_residual]
      exact Vec.slice_eq fun i hi => hr i b i (locate_head (hb.size_residual ▸ hi))
    have htail : ∀ i c k, locate rest i = some (c, k) →
        r.entry (row + b.A.rows + i) = (c.residual x).entry k := by
      intro i c k hloc
      rw [Nat.add_assoc]
      exact hr _ c k ((locate_tail b rest i).trans hloc)
    rw [List.map_cons, List.foldr_cons, ConeBlock.inConesFrom_merge, InConesFrom, hslice,
      ih hrest htail, List.forall_mem_cons, ConstraintBlock.Holds]

/-- The rows of a stack lie in its cones exactly when every pushed block holds. -/
theorem inProduct_pushAll_iff {n : ℕ} {cs : List (ConstraintBlock ℝ)}
    (h : ∀ c ∈ cs, c.Conforms n) :
    let s := (empty n).pushAll cs
    InProduct s.cones (s.bounds - s.matrix.mulVec x) ↔ ∀ c ∈ cs, c.Holds x := by
  intro s
  have hs : s.Conforms := conforms_pushAll h
  have hmem : ∀ c ∈ s.blocks, c ∈ cs := fun c hc => (mem_blocks_pushAll.1 hc).1
  have hrows : coneRows s.cones = (s.bounds - s.matrix.mulVec x).size := by
    rw [coneRows_cones, Vec.size_sub, bounds, Vec.size_ofFn]
  have hblocks : InConesFrom (s.bounds - s.matrix.mulVec x) s.cones 0 ↔
      ∀ c ∈ s.blocks, c.Holds x := by
    refine inConesFrom_iff (fun c hc => h c (hmem c hc)) fun i c k hloc => ?_
    rw [Nat.zero_add]
    exact entry_residual_of_locate hs hloc
  rw [InProduct, and_iff_right hrows, hblocks]
  constructor
  · intro hall c hc
    by_cases hzero : c.A.rows = 0
    · exact (h c hc).holds_of_rows_eq_zero hzero
    · exact hall c (mem_blocks_pushAll.2 ⟨hc, hzero⟩)
  · exact fun hall c hc => hall c (hmem c hc)

end ConstraintStack

end WholeBody
