import Mathlib
import WholeBody.Proofs.Linear.Form

/-!
# Magnitudes

The largest magnitude and the smallest entry of a vector or a matrix are known by the numbers that
bound them.

## Main statements

* `Vec.maxAbs_le_iff`, `Vec.le_minimum_iff` — bounds of the entries of a vector.
* `Mat.maxAbs_le_iff`, `Mat.asymmetry_le_iff` — bounds of the entries of a matrix, and of their
  differences from the entries opposite to them.
-/

namespace WholeBody

namespace Scalar

theorem foldl_max_abs_le_iff (xs : List ℝ) (start ε : ℝ) :
    xs.foldl (fun m y => Scalar.max m (Scalar.abs y)) start ≤ ε ↔
      start ≤ ε ∧ ∀ y ∈ xs, |y| ≤ ε := by
  induction xs generalizing start with
  | nil => simp
  | cons x xs ih =>
    have hmax : Scalar.max start (Scalar.abs x) ≤ ε ↔ start ≤ ε ∧ |x| ≤ ε := max_le_iff
    rw [List.foldl_cons, ih, hmax, List.forall_mem_cons, and_assoc]

theorem le_foldl_min_iff (xs : List ℝ) (start bound : ℝ) :
    bound ≤ xs.foldl Scalar.min start ↔ bound ≤ start ∧ ∀ y ∈ xs, bound ≤ y := by
  induction xs generalizing start with
  | nil => simp
  | cons x xs ih =>
    have hmin : bound ≤ Scalar.min start x ↔ bound ≤ start ∧ bound ≤ x := le_min_iff
    rw [List.foldl_cons, ih, hmin, List.forall_mem_cons, and_assoc]

/-- The largest magnitude bounds every number. That of no numbers is zero. -/
theorem maxAbs_le_iff {xs : List ℝ} {ε : ℝ} (hε : 0 ≤ ε) : maxAbs xs ≤ ε ↔ ∀ y ∈ xs, |y| ≤ ε := by
  cases xs with
  | nil => exact iff_of_true hε (List.forall_mem_nil _)
  | cons x xs =>
    rw [maxAbs, foldl_max_abs_le_iff, List.forall_mem_cons]
    rfl

end Scalar

namespace Vec

variable {v : Vec ℝ} {ε : ℝ}

theorem maxAbs_le_iff (hε : 0 ≤ ε) : v.maxAbs ≤ ε ↔ ∀ i < v.size, |v.entry i| ≤ ε := by
  rw [maxAbs, Scalar.maxAbs_le_iff hε, forall_mem_toList (P := fun y => |y| ≤ ε)]

/-- The smallest entry is below every entry. That of no entries is zero. -/
theorem le_minimum_iff {bound : ℝ} (hbound : bound ≤ 0) :
    bound ≤ v.minimum ↔ ∀ i < v.size, bound ≤ v.entry i := by
  rw [← forall_mem_toList (P := fun y => bound ≤ y), minimum]
  cases v.toList with
  | nil => exact iff_of_true hbound (List.forall_mem_nil _)
  | cons x xs => rw [Scalar.minimum, Scalar.le_foldl_min_iff, List.forall_mem_cons]

end Vec

namespace Mat

variable {m : Mat ℝ} {ε : ℝ}

theorem maxAbs_le_iff (hε : 0 ≤ ε) :
    m.maxAbs ≤ ε ↔ ∀ i < m.rows, ∀ j < m.cols, |m.entry i j| ≤ ε := by
  rw [maxAbs, Scalar.maxAbs_le_iff hε, forall_mem_toList (P := fun y => |y| ≤ ε)]

theorem asymmetry_le_iff (hε : 0 ≤ ε) : m.asymmetry ≤ ε ↔
    ∀ i < m.rows, ∀ j < m.cols, |m.entry i j - m.entry j i| ≤ ε := by
  rw [asymmetry, maxAbs_le_iff hε]
  refine forall₂_congr fun i (hi : i < m.rows) => forall₂_congr fun j (hj : j < m.cols) => ?_
  rw [entry_ofFn_of_lt hi hj]

end Mat

end WholeBody
