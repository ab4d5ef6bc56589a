import Mathlib
import WholeBody.Scalar

/-!
# Real numbers as scalars

Exact arithmetic. Over the reals every definition of the library is a mathematical function: all
numbers are finite, nothing is rounded, and the sums that run from the left are finite sums.
-/

namespace WholeBody

noncomputable instance : Scalar ℝ where
  ofDecimal m k := m / 10 ^ k
  pi := Real.pi
  sqrt := Real.sqrt
  sin := Real.sin
  cos := Real.cos
  abs x := |x|
  atan2 y x := Complex.arg ⟨x, y⟩
  hypot x y := Real.sqrt (x ^ 2 + y ^ 2)
  max := max
  min := min
  isFinite _ := true
  decidableLT := inferInstance
  decidableLE := inferInstance

namespace Scalar

variable {x y : ℝ}

@[simp] theorem pi_real : (Scalar.pi : ℝ) = Real.pi := rfl

@[simp] theorem sqrt_real : Scalar.sqrt x = Real.sqrt x := rfl

@[simp] theorem sin_real : Scalar.sin x = Real.sin x := rfl

@[simp] theorem cos_real : Scalar.cos x = Real.cos x := rfl

@[simp] theorem hypot_real : Scalar.hypot x y = Real.sqrt (x ^ 2 + y ^ 2) := rfl

@[simp] theorem isFinite_real : Scalar.isFinite x = true := rfl

@[simp] theorem double_real : Scalar.double x = 2 * x := by
  change ((2 : ℕ) : ℝ) * x = 2 * x
  norm_num

theorem ofDecimal_real (m k : ℕ) : (Scalar.ofDecimal m k : ℝ) = m / 10 ^ k := rfl

@[simp] theorem half_real : (Scalar.ofDecimal 5 1 : ℝ) = 1 / 2 := by
  norm_num [ofDecimal_real]

theorem isZero_real : Scalar.IsZero x ↔ x = 0 := le_antisymm_iff.symm

theorem sum_real (n : ℕ) (f : ℕ → ℝ) : Scalar.sum n f = ∑ i ∈ Finset.range n, f i := by
  induction n with
  | zero => rfl
  | succ n ih => rw [Finset.sum_range_succ, ← ih]; rfl

end Scalar

end WholeBody
