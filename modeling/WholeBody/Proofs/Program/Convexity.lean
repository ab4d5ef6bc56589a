import Mathlib
import WholeBody.Proofs.Linear.Form
import WholeBody.Proofs.Program.Stack

/-!
# Convexity of cone programs

The cones of a program are closed under nonnegative combinations, so its feasible points are a
convex set. The cost halfway between two points is below the mean of their costs, by an eighth of
the Hessian at their difference. Two minimizers therefore differ by a vector on which the Hessian is
not positive.

## Main statements

* `ConeProgram.Feasible.combine` — convex combinations of feasible points.
* `ConeProgram.cost_midpoint` — the cost of a midpoint.
* `ConeProgram.IsMinimizer.form_sub_nonpos` — the difference of two minimizers.
-/

namespace WholeBody

/-! ### Combinations of vectors -/

namespace Vec

variable {v w : Vec ℝ} {a b : ℝ} {i : ℕ}

/-- The first `n` entries as a point of the Euclidean space. -/
noncomputable def toEuclidean (v : Vec ℝ) (n : ℕ) : EuclideanSpace ℝ (Fin n) :=
  (EuclideanSpace.equiv (Fin n) ℝ).symm fun i => v.entry i

theorem norm_eq (v : Vec ℝ) : v.norm = ‖v.toEuclidean v.size‖ := by
  rw [norm, dot_eq_sum, EuclideanSpace.norm_eq, Finset.sum_range]
  simp [toEuclidean, sq]

@[simp] theorem size_combine : (a • v + b • w).size = v.size := by
  rw [size_add, size_smul]

theorem entry_combine (h : v.size = w.size) :
    (a • v + b • w).entry i = a * v.entry i + b * w.entry i := by
  rw [entry_add (by simp [h]), entry_smul, entry_smul]

theorem slice_combine (h : v.size = w.size) (start len : ℕ) :
    (a • v + b • w).slice start len = a • v.slice start len + b • w.slice start len := by
  refine ext_entry (by simp) fun i hi => ?_
  rw [size_slice] at hi
  have hslices : (v.slice start len).size = (w.slice start len).size := by simp
  rw [entry_slice hi, entry_combine h, entry_combine hslices, entry_slice hi, entry_slice hi]

theorem dot_combine {q : Vec ℝ} (h : v.size = w.size) :
    q.dot (a • v + b • w) = a * q.dot v + b * q.dot w := by
  simp only [dot_eq_sum, entry_combine h, Finset.mul_sum, ← Finset.sum_add_distrib]
  exact Finset.sum_congr rfl fun i _ => by ring

/-- The triangle inequality. -/
theorem norm_combine_le (h : v.size = w.size) (ha : 0 ≤ a) (hb : 0 ≤ b) :
    (a • v + b • w).norm ≤ a * v.norm + b * w.norm := by
  have hsum : (a • v + b • w).toEuclidean v.size =
      a • v.toEuclidean v.size + b • w.toEuclidean v.size := by
    ext i
    simp [toEuclidean, entry_combine h]
  calc (a • v + b • w).norm = ‖a • v.toEuclidean v.size + b • w.toEuclidean v.size‖ := by
        rw [norm_eq, size_combine, hsum]
    _ ≤ ‖a • v.toEuclidean v.size‖ + ‖b • w.toEuclidean v.size‖ := norm_add_le _ _
    _ = a * v.norm + b * w.norm := by
        rw [norm_smul_of_nonneg ha, norm_smul_of_nonneg hb, norm_eq v, norm_eq w, h]

end Vec

theorem Mat.mulVec_combine {m : Mat ℝ} {v w : Vec ℝ} {a b : ℝ} {i : ℕ} (h : v.size = w.size) :
    (m.mulVec (a • v + b • w)).entry i = a * (m.mulVec v).entry i + b * (m.mulVec w).entry i := by
  simp only [entry_mulVec, Vec.entry_combine h, Finset.mul_sum, ← Finset.sum_add_distrib]
  exact Finset.sum_congr rfl fun j _ => by ring

/-- The quadratic part halfway between two points. -/
theorem Mat.form_midpoint {P : Mat ℝ} {x y : Vec ℝ} (hx : P.Over x) (hy : P.Over y) :
    P.form ((1 / 2 : ℝ) • x + (1 / 2 : ℝ) • y) =
      1 / 2 * P.form x + 1 / 2 * P.form y - 1 / 4 * P.form (x - y) := by
  have hsize : x.size = y.size := hx.1.symm.trans hy.1
  have hmid : P.Over ((1 / 2 : ℝ) • x + (1 / 2 : ℝ) • y) := by rwa [Over, Vec.size_combine]
  have hsub : P.Over (x - y) := by rwa [Over, Vec.size_sub]
  rw [form_eq_sum hx, form_eq_sum hy, form_eq_sum hmid, form_eq_sum hsub, Vec.size_combine,
    Vec.size_sub, ← hsize]
  simp only [Finset.mul_sum, ← Finset.sum_add_distrib, ← Finset.sum_sub_distrib]
  refine Finset.sum_congr rfl fun i _ => Finset.sum_congr rfl fun j _ => ?_
  rw [Vec.entry_combine hsize, Vec.entry_combine hsize, Vec.entry_sub hsize.ge,
    Vec.entry_sub hsize.ge]
  ring

/-! ### Combinations in cones -/

section Cones

variable {s t : Vec ℝ} {a b : ℝ}

theorem ConeKind.Contains.combine {kind : ConeKind} (hs : kind.Contains s) (ht : kind.Contains t)
    (h : s.size = t.size) (ha : 0 ≤ a) (hb : 0 ≤ b) : kind.Contains (a • s + b • t) := by
  cases kind with
  | zero =>
    intro i hi
    rw [Vec.size_combine] at hi
    rw [Vec.entry_combine h, hs i hi, ht i (h ▸ hi), mul_zero, mul_zero, add_zero]
  | nonnegative =>
    intro i hi
    rw [Vec.size_combine] at hi
    rw [Vec.entry_combine h]
    exact add_nonneg (mul_nonneg ha (hs i hi)) (mul_nonneg hb (ht i (h ▸ hi)))
  | secondOrder =>
    have hs : (s.slice 1 (s.size - 1)).norm ≤ s.entry 0 := hs
    have ht : (t.slice 1 (t.size - 1)).norm ≤ t.entry 0 := ht
    rw [← h] at ht
    change ((a • s + b • t).slice 1 ((a • s + b • t).size - 1)).norm ≤ (a • s + b • t).entry 0
    rw [Vec.size_combine, Vec.slice_combine h, Vec.entry_combine h]
    calc (a • s.slice 1 (s.size - 1) + b • t.slice 1 (s.size - 1)).norm
        ≤ a * (s.slice 1 (s.size - 1)).norm + b * (t.slice 1 (s.size - 1)).norm :=
          Vec.norm_combine_le (by simp) ha hb
      _ ≤ a * s.entry 0 + b * t.entry 0 := by gcongr

theorem InConesFrom.combine {cones : List ConeBlock} {row : ℕ} (hs : InConesFrom s cones row)
    (ht : InConesFrom t cones row) (h : s.size = t.size) (ha : 0 ≤ a) (hb : 0 ≤ b) :
    InConesFrom (a • s + b • t) cones row := by
  induction cones generalizing row with
  | nil => trivial
  | cons c rest ih =>
    obtain ⟨hsc, hsrest⟩ := hs
    obtain ⟨htc, htrest⟩ := ht
    refine ⟨?_, ih hsrest htrest⟩
    rw [Vec.slice_combine h]
    exact hsc.combine htc (by simp) ha hb

end Cones

/-! ### Programs -/

namespace ConeProgram

variable {p : ConeProgram ℝ} {x y : Vec ℝ}

/-- The feasible points are a convex set. -/
theorem Feasible.combine (hx : p.Feasible x) (hy : p.Feasible y) (hrows : p.A.rows = p.b.size)
    (h : x.size = y.size) {a b : ℝ} (ha : 0 ≤ a) (hb : 0 ≤ b) (hab : a + b = 1) :
    p.Feasible (a • x + b • y) := by
  have hsize (z : Vec ℝ) : (p.residual z).size = p.b.size := Vec.size_sub _ _
  have hentry (z : Vec ℝ) (i : ℕ) :
      (p.residual z).entry i = p.b.entry i - (p.A.mulVec z).entry i :=
    Vec.entry_sub (by rw [Mat.size_mulVec, hrows])
  have hresidual : p.residual (a • x + b • y) = a • p.residual x + b • p.residual y := by
    refine Vec.ext_entry (by simp [hsize]) fun i _ => ?_
    rw [Vec.entry_combine ((hsize x).trans (hsize y).symm), hentry, hentry, hentry,
      Mat.mulVec_combine h]
    linear_combination (-p.b.entry i) * hab
  obtain ⟨hcones, hxin⟩ := hx
  obtain ⟨-, hyin⟩ := hy
  rw [Feasible, hresidual]
  refine ⟨?_, hxin.combine hyin ((hsize x).trans (hsize y).symm) ha hb⟩
  rw [hcones, Vec.size_combine]

/-- The cost halfway between two points is below the mean of their costs by an eighth of the Hessian
at their difference. -/
theorem cost_midpoint (hx : p.P.Over x) (hy : p.P.Over y) :
    p.cost ((1 / 2 : ℝ) • x + (1 / 2 : ℝ) • y) =
      1 / 2 * p.cost x + 1 / 2 * p.cost y - 1 / 8 * p.P.form (x - y) := by
  have hsize : x.size = y.size := hx.1.symm.trans hy.1
  have hcost (z : Vec ℝ) : p.cost z = 1 / 2 * p.P.form z + p.q.dot z := by
    rw [cost, Scalar.half_real]
    rfl
  rw [hcost, hcost, hcost, Mat.form_midpoint hx hy, Vec.dot_combine hsize]
  ring

/-- A feasible point of least cost. -/
structure IsMinimizer (p : ConeProgram ℝ) (x : Vec ℝ) : Prop where
  size : x.size = p.numVariables
  feasible : p.Feasible x
  least : ∀ y : Vec ℝ, y.size = p.numVariables → p.Feasible y → p.cost x ≤ p.cost y

/-- The Hessian is not positive at the difference of two minimizers: halfway between them the cost
is no lower. -/
theorem IsMinimizer.form_sub_nonpos (hx : p.IsMinimizer x) (hy : p.IsMinimizer y)
    (hP : p.P.Over x) (hrows : p.A.rows = p.b.size) : p.P.form (x - y) ≤ 0 := by
  have hsize : x.size = y.size := hx.size.trans hy.size.symm
  have hPy : p.P.Over y := by rwa [Mat.Over, ← hsize]
  have hhalf : (0 : ℝ) ≤ 1 / 2 := by norm_num
  have hmid := hx.feasible.combine hy.feasible hrows hsize hhalf hhalf (add_halves 1)
  have hleast := hx.least _ (Vec.size_combine.trans hx.size) hmid
  have hle := hx.least y hy.size hy.feasible
  have hge := hy.least x hx.size hx.feasible
  rw [cost_midpoint hP hPy] at hleast
  linarith

end ConeProgram

end WholeBody
