import Mathlib
import WholeBody.Proofs.Linear.Entry
import WholeBody.Proofs.Program.Shape

/-!
# The order of terms

The terms of a tick are added to the cost one after the other. In exact arithmetic their order is of
no importance, and a term without weight adds nothing.

## Main statements

* `SameShare.of_perm` — the same terms in another order.
* `SameShare.cons_of_weightless` — a term without weight.
* `SameShare.build_eq_ok` — terms that add the same make the same program.
-/

namespace WholeBody

/-! ### Adding -/

section Adding

variable (m a b : Mat ℝ) (v w u : Vec ℝ)

theorem Mat.addBlock_right_comm :
    (m.addBlock 0 0 a).addBlock 0 0 b = (m.addBlock 0 0 b).addBlock 0 0 a := by
  refine ext_entry (by simp) (by simp) fun i hi j hj => ?_
  simp only [rows_addBlock, cols_addBlock] at hi hj
  have hentry (c d : Mat ℝ) : ((m.addBlock 0 0 c).addBlock 0 0 d).entry i j =
      m.entry i j + c.entry i j + d.entry i j := by
    rw [entry_addBlock_corner (by simpa using hi) (by simpa using hj), entry_addBlock_corner hi hj]
  rw [hentry, hentry, add_right_comm]

theorem Vec.addAt_right_comm : (v.addAt 0 w).addAt 0 u = (v.addAt 0 u).addAt 0 w := by
  have hsize (x y : Vec ℝ) : ((v.addAt 0 x).addAt 0 y).size = v.size := by simp
  refine ext_entry ((hsize w u).trans (hsize u w).symm) fun i hi => ?_
  rw [hsize] at hi
  have hentry (x y : Vec ℝ) : ((v.addAt 0 x).addAt 0 y).entry i =
      v.entry i + x.entry i + y.entry i := by
    rw [entry_addAt_front ((size_addAt v 0 x).symm ▸ hi), entry_addAt_front hi]
  rw [hentry, hentry, add_right_comm]

variable {m b v w}

theorem Mat.addBlock_of_entry_eq_zero (h : ∀ i j, b.entry i j = 0) : m.addBlock 0 0 b = m := by
  refine ext_entry (rows_addBlock _ _ _ _) (cols_addBlock _ _ _ _) fun i hi j hj => ?_
  rw [rows_addBlock] at hi
  rw [cols_addBlock] at hj
  rw [entry_addBlock_corner hi hj, h, add_zero]

theorem Vec.addAt_of_entry_eq_zero (h : ∀ i, w.entry i = 0) : v.addAt 0 w = v := by
  refine ext_entry (size_addAt _ _ _) fun i hi => ?_
  rw [size_addAt] at hi
  rw [entry_addAt_front hi, h, add_zero]

end Adding

/-! ### Terms without weight -/

/-- A term whose weight is zero. -/
def TaskTerm.Weightless (t : TaskTerm ℝ) : Prop := ∀ i j, t.weight.entry i j = 0

namespace TaskTerm.Weightless

variable {t : TaskTerm ℝ}

theorem entry_weightedJacobian (h : t.Weightless) (i j : ℕ) :
    t.weightedJacobian.entry i j = 0 := by
  rw [weightedJacobian, Mat.entry_mul]
  exact Finset.sum_eq_zero fun l _ => by rw [h, mul_zero]

theorem addBlock_hessian (h : t.Weightless) (P : Mat ℝ) : P.addBlock 0 0 t.hessian = P := by
  refine Mat.addBlock_of_entry_eq_zero fun i j => ?_
  rw [hessian, Mat.entry_smul, Mat.entry_mul]
  simp only [h.entry_weightedJacobian, zero_mul, Finset.sum_const_zero, mul_zero]

theorem addAt_gradient (h : t.Weightless) (q : Vec ℝ) : q.addAt 0 t.gradient = q := by
  refine Vec.addAt_of_entry_eq_zero fun i => ?_
  rw [gradient, Vec.entry_smul, Mat.entry_mulVec]
  simp only [h.entry_weightedJacobian, zero_mul, Finset.sum_const_zero, mul_zero]

end TaskTerm.Weightless

/-! ### Programs -/

section Programs

variable {α : Type} [Scalar α] {terms terms' : List (TaskTerm α)}

/-- Terms that add the same to every cost. -/
structure SameShare (terms terms' : List (TaskTerm α)) : Prop where
  hessian : ∀ P : Mat α, terms'.foldl (fun P t => P.addBlock 0 0 t.hessian) P =
    terms.foldl (fun P t => P.addBlock 0 0 t.hessian) P
  gradient : ∀ q : Vec α, terms'.foldl (fun q t => q.addAt 0 t.gradient) q =
    terms.foldl (fun q t => q.addAt 0 t.gradient) q

theorem SameShare.refl (terms : List (TaskTerm α)) : SameShare terms terms :=
  ⟨fun _ => rfl, fun _ => rfl⟩

theorem SameShare.append_left (ts : List (TaskTerm α)) (h : SameShare terms terms') :
    SameShare (ts ++ terms) (ts ++ terms') where
  hessian P := by rw [List.foldl_append, List.foldl_append, h.hessian]
  gradient q := by rw [List.foldl_append, List.foldl_append, h.gradient]

theorem SameShare.program_eq (h : SameShare terms terms') (d : TickData α) (a : Assembler α) :
    d.program a terms' = d.program a terms := by
  simp only [TickData.program, TickData.hessian, TickData.gradient, h.hessian, h.gradient]

/-- A program that can be built can be built with fewer terms, too, when these make up for all. -/
theorem SameShare.build_eq_ok (h : SameShare terms terms') (hsubset : terms' ⊆ terms)
    {a : Assembler α} {model : RobotModel α} {state : RobotState α}
    {contacts : List (ContactPoint α)} {p : ConeProgram α}
    (hbuild : a.build model state terms contacts = .ok p) :
    a.build model state terms' contacts = .ok p := by
  obtain ⟨d, hd, ⟨hterms, hcosts, hspans⟩, heffort, rfl⟩ := Assembler.build_eq_ok_iff.1 hbuild
  exact Assembler.build_eq_ok_iff.2 ⟨d, hd, ⟨fun t ht => hterms t (hsubset ht), hcosts, hspans⟩,
    heffort, (h.program_eq d a).symm⟩

end Programs

/-- The same terms in another order add the same to every cost. -/
theorem SameShare.of_perm {terms terms' : List (TaskTerm ℝ)} (h : terms'.Perm terms) :
    SameShare terms terms' where
  hessian := h.foldl_eq' fun _ _ _ _ P => P.addBlock_right_comm _ _
  gradient := h.foldl_eq' fun _ _ _ _ q => q.addAt_right_comm _ _

/-- A term without weight in front adds nothing. -/
theorem SameShare.cons_of_weightless {terms terms' : List (TaskTerm ℝ)} {t : TaskTerm ℝ}
    (ht : t.Weightless) (h : SameShare terms terms') : SameShare (t :: terms) terms' where
  hessian P := by rw [h.hessian, List.foldl_cons, ht.addBlock_hessian]
  gradient q := by rw [h.gradient, List.foldl_cons, ht.addAt_gradient]

end WholeBody
