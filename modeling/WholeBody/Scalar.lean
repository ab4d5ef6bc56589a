/-!
# Scalars

The numbers that a controller computes with. Every numeric definition of the library is written
over a `Scalar`: machine floats when it runs, an exact field when it is reasoned about.

Comparisons are propositions with a decision, so a definition branches on `a < b` itself. On
machine floats a comparison with a value that is not a number is false.
-/

namespace WholeBody

/-- Numbers with the operations of kinematics, task tracking and conic programs. -/
class Scalar (α : Type) where
  [toZero : Zero α]
  [toOne : One α]
  [toAdd : Add α]
  [toSub : Sub α]
  [toNeg : Neg α]
  [toMul : Mul α]
  [toDiv : Div α]
  [toNatCast : NatCast α]
  [toLT : LT α]
  [toLE : LE α]
  /-- `ofDecimal m k` is the number nearest to `m / 10 ^ k`. -/
  ofDecimal : Nat → Nat → α
  pi : α
  sqrt : α → α
  sin : α → α
  cos : α → α
  abs : α → α
  /-- `atan2 y x` is the angle of the point `(x, y)`. -/
  atan2 : α → α → α
  /-- `hypot x y` is the length of `(x, y)`. -/
  hypot : α → α → α
  max : α → α → α
  min : α → α → α
  isFinite : α → Bool
  decidableLT : DecidableLT α
  decidableLE : DecidableLE α

namespace Scalar

variable {α : Type} [Scalar α]

/-! ### Operations

A type with arithmetic of its own keeps it: the operations of a scalar are tried last. -/

instance (priority := low) : Zero α := toZero

instance (priority := low) : One α := toOne

instance (priority := low) : Add α := toAdd

instance (priority := low) : Sub α := toSub

instance (priority := low) : Neg α := toNeg

instance (priority := low) : Mul α := toMul

instance (priority := low) : Div α := toDiv

instance (priority := low) : NatCast α := toNatCast

instance (priority := low) : LT α := toLT

instance (priority := low) : LE α := toLE

instance (priority := low) : DecidableLT α := decidableLT

instance (priority := low) : DecidableLE α := decidableLE

/-- Neither above nor below zero. -/
def IsZero (x : α) : Prop := x ≤ 0 ∧ 0 ≤ x

instance (x : α) : Decidable (IsZero x) := inferInstanceAs (Decidable (_ ∧ _))

/-- Twice a number. -/
def double (x : α) : α := ((2 : Nat) : α) * x

/-- `sum n f` is `f 0 + f 1 + … + f (n - 1)`, added from the left. -/
def sum : Nat → (Nat → α) → α
  | 0, _ => 0
  | n + 1, f => sum n f + f n

@[simp] theorem sum_zero (f : Nat → α) : sum 0 f = 0 := rfl

theorem sum_succ (n : Nat) (f : Nat → α) : sum (n + 1) f = sum n f + f n := rfl

theorem sum_congr {n : Nat} {f g : Nat → α} (h : ∀ i < n, f i = g i) : sum n f = sum n g := by
  induction n with
  | zero => rfl
  | succ n ih =>
    rw [sum_succ, sum_succ, ih fun i hi => h i (by omega), h n (by omega)]

/-- Largest magnitude in a list, zero when the list is empty. -/
def maxAbs : List α → α
  | [] => 0
  | x :: xs => xs.foldl (fun m y => max m (abs y)) (abs x)

/-- Smallest number in a list, zero when the list is empty. -/
def minimum : List α → α
  | [] => 0
  | x :: xs => xs.foldl min x

end Scalar

end WholeBody
