import Mathlib
import WholeBody.Proofs.Scalar.Real
import WholeBody.Scalar.Float

/-!
# Machine floats as numbers

Finite floats are in order, and multiplying one of them by zero or by one gives zero or the same
float again: nothing is rounded. What needs no more of its scalars than this holds of machine floats
as it holds in exact arithmetic.

## Main definitions

* `Scalar.Orderly` — scalars whose finite numbers are in order.
* `FloatScalar.Canonical` — finite floats as a mantissa and an exponent.

## Main statements

* `FloatScalar.pack_unpack` — a finite float is the one of its mantissa and exponent.
* `FloatScalar.not_lt_iff_le`, `FloatScalar.one_mul_of_isFinite`, `FloatScalar.isZero_zero_mul` —
  machine floats are orderly.
-/

namespace WholeBody

/-- Scalars whose finite numbers are in order, and that are multiplied by zero and one without an
error. -/
class Scalar.Orderly (α : Type) [Scalar α] : Prop where
  not_lt_iff_le {x y : α} : isFinite x = true → isFinite y = true → (¬ y < x ↔ x ≤ y)
  isFinite_zero : isFinite (0 : α) = true
  isFinite_billionth : isFinite (ofDecimal 1 9 : α) = true
  one_mul {x : α} : isFinite x = true → 1 * x = x
  isZero_zero_mul {x : α} : isFinite x = true → IsZero (0 * x)

instance : Scalar.Orderly ℝ where
  not_lt_iff_le _ _ := not_lt
  isFinite_zero := rfl
  isFinite_billionth := rfl
  one_mul _ := one_mul _
  isZero_zero_mul _ := Scalar.isZero_real.2 (zero_mul _)

namespace FloatScalar

open Float.Model Float.Model.UnpackedFloat

/-! ### Order -/

/-- Finite floats are compared both ways alike. -/
theorem exists_compare_eq_swap {u v : UnpackedFloat} (hu : u.isFinite = true)
    (hv : v.isFinite = true) : ∃ o, u.compare v = some o ∧ v.compare u = some o.swap := by
  cases u with
  | infinity | notANumber => cases hu
  | zero s =>
    cases v with
    | infinity | notANumber => cases hv
    | zero s' => exact ⟨.eq, rfl, rfl⟩
    | finite s' m e hm => cases s' <;> exact ⟨_, rfl, rfl⟩
  | finite s m e hm =>
    cases v with
    | infinity | notANumber => cases hv
    | zero s' => cases s <;> exact ⟨_, rfl, rfl⟩
    | finite s' m' e' hm' =>
      have hswap : ((compare e e').then (compare m m')).swap =
          (compare e' e).then (compare m' m) := by
        rw [Ordering.swap_then, ← Std.OrientedOrd.eq_swap, ← Std.OrientedOrd.eq_swap]
      cases s <;> cases s'
      · exact ⟨_, rfl, by rw [Ordering.swap_swap, UnpackedFloat.compare, ← hswap,
          Ordering.swap_swap]⟩
      · exact ⟨_, rfl, rfl⟩
      · exact ⟨_, rfl, rfl⟩
      · exact ⟨_, rfl, by rw [hswap, UnpackedFloat.compare]⟩

theorem lt_iff {x y : Float} : x < y ↔ x.toModel.unpack.compare y.toModel.unpack = some .lt :=
  decide_eq_true_iff.trans beq_iff_eq

theorem le_iff {x y : Float} : x ≤ y ↔
    (x.toModel.unpack.compare y.toModel.unpack).any (·.isLE) = true :=
  decide_eq_true_iff

theorem not_lt_iff_le {x y : Float} (hx : x.isFinite = true) (hy : y.isFinite = true) :
    ¬ y < x ↔ x ≤ y := by
  obtain ⟨o, hxy, hyx⟩ :=
    exists_compare_eq_swap (u := x.toModel.unpack) (v := y.toModel.unpack) hx hy
  rw [lt_iff, le_iff, hxy, hyx]
  cases o <;> decide

/-! ### Mantissa and exponent -/

/-- Zero, or a mantissa of at most 53 bits whose first bit is set unless the exponent is the least
one. -/
inductive Canonical : UnpackedFloat → Prop
  | zero (s : Sign) : Canonical (.zero s)
  | finite (s : Sign) {m : ℕ} {e : ℤ} (hpos : 0 < m) (hm : m < 2 ^ 53) (he : -1074 ≤ e)
    (hlead : 2 ^ 52 ≤ m ∨ e = -1074) : Canonical (.finite s m e hpos)

theorem toBitVec_ofBitVec (b : BitVec 1) : (Sign.ofBitVec b).toBitVec = b := by
  revert b
  decide

/-- The bits of a float are those of its sign, its exponent and its mantissa. -/
theorem packComponents_eq (b : BitVec Format.binary64.numBits) :
    packComponents .binary64 (Sign.ofBitVec (unpackSign b)) (unpackExponent b)
      (unpackMantissa b) = b := by
  rw [packComponents, toBitVec_ofBitVec]
  refine BitVec.eq_of_getLsbD_eq fun i hi => ?_
  rw [BitVec.getLsbD_append, BitVec.getLsbD_append]
  simp only [unpackSign, unpackExponent, unpackMantissa, BitVec.getLsbD_cast,
    BitVec.getLsbD_extractLsb]
  have hi : i < 64 := hi
  split
  · rw [decide_eq_true (by omega), Bool.true_and, Nat.zero_add]
  split
  · rw [decide_eq_true (by omega), Bool.true_and, Nat.add_sub_cancel' (by omega)]
  · rw [decide_eq_true (by omega), Bool.true_and]
    congr 1
    omega

theorem exponentBias_binary64 : Format.binary64.exponentBias = 1023 := rfl

/-- The bits of a mantissa with its first bit not set. -/
theorem pack_subnormal (s : Sign) {m : BitVec 52} (hpos : 0 < m.toNat) :
    UnpackedFloat.pack .binary64 (.finite s m.toNat (-1074) hpos) =
      packComponents .binary64 s 0#11 m := by
  have hlog : m.toNat.log2 < 52 := (Nat.log2_lt hpos.ne').2 m.isLt
  rw [UnpackedFloat.pack]
  dsimp only
  rw [if_neg (by decide), if_neg, BitVec.ofNat_toNat, BitVec.setWidth_eq]
  exact fun hlog' => absurd (Nat.succ.inj hlog') hlog.ne

theorem toNat_append_one (m : BitVec 52) : (1#1 ++ m).toNat = 2 ^ 52 + m.toNat := by
  rw [BitVec.toNat_append, ← Nat.shiftLeft_add_eq_or_of_lt m.isLt]
  rfl

/-- The bits of a mantissa without its first bit, which is set. -/
theorem pack_normal (s : Sign) {e : BitVec 11} {m : BitVec 52} (he : e.toNat ≠ 2047)
    (hpos : 0 < (1#1 ++ m).toNat) :
    UnpackedFloat.pack .binary64
        (.finite s (1#1 ++ m).toNat ((e.toNat : ℤ) - (1023 + 52)) hpos) =
      packComponents .binary64 s e m := by
  have hlead := toNat_append_one m
  have hlog : (1#1 ++ m).toNat.log2 = 52 :=
    (Nat.log2_eq_iff hpos.ne').2 ⟨by omega, by omega⟩
  have hbiased : ((e.toNat : ℤ) - (1023 + 52) + Format.binary64.exponentBias + (52 : ℕ)).toNat =
      e.toNat := by
    rw [exponentBias_binary64]
    omega
  have htop : ¬ 2 ^ 11 ≤ e.toNat + 1 := by omega
  have hmantissa : BitVec.ofNat 52 (1#1 ++ m).toNat = m := by
    rw [hlead, BitVec.ofNat_add]
    exact (BitVec.zero_add _).trans ((BitVec.ofNat_toNat 52 m).trans (BitVec.setWidth_eq m))
  rw [UnpackedFloat.pack]
  dsimp only
  rw [hbiased, if_neg htop, hlog, if_pos (by rfl), hmantissa, BitVec.ofNat_toNat,
    BitVec.setWidth_eq]

/-- A finite float is the one of its mantissa and exponent. -/
theorem pack_unpack {b : BitVec Format.binary64.numBits}
    (h : (UnpackedFloat.unpack .binary64 b).isFinite = true) :
    Canonical (UnpackedFloat.unpack .binary64 b) ∧
      UnpackedFloat.pack .binary64 (UnpackedFloat.unpack .binary64 b) = b := by
  have hbits := packComponents_eq b
  generalize hsign : unpackSign b = sign at hbits
  generalize hexponent : unpackExponent b = e at hbits
  generalize hmantissa : unpackMantissa b = m at hbits
  rw [UnpackedFloat.unpack] at h ⊢
  simp only [hsign, hexponent, hmantissa, exponentBias_binary64, Nat.cast_ofNat] at h ⊢
  have hm : m.toNat < 2 ^ 52 := m.isLt
  have he : e.toNat < 2 ^ 11 := e.isLt
  by_cases hall : e = -1#_
  · rw [if_pos hall] at h
    split at h <;> cases h
  rw [if_neg hall]
  by_cases hleast : e = 0#_
  · subst hleast
    rw [if_pos rfl]
    by_cases hzero : m = 0#_
    · subst hzero
      exact ⟨.zero _, hbits⟩
    · rw [dif_neg hzero]
      exact ⟨.finite _ _ (by omega) (by decide) (.inr rfl), (pack_subnormal _ _).trans hbits⟩
  · rw [if_neg hleast]
    have htop : e.toNat ≠ 2047 := fun htop => hall (BitVec.eq_of_toNat_eq htop)
    have hbottom : e.toNat ≠ 0 := fun hbottom => hleast (BitVec.eq_of_toNat_eq hbottom)
    have hlead : (1#1 ++ m).toNat = 2 ^ 52 + m.toNat := toNat_append_one m
    have hlow : (-1074 : ℤ) ≤ (e.toNat : ℤ) - (1023 + 52) := by omega
    exact ⟨.finite _ _ (by omega) hlow (.inl (by omega)), (pack_normal _ htop _).trans hbits⟩

/-! ### Products without rounding -/

theorem shiftRight_two_pow_mul (n m : ℕ) :
    (⟨2 ^ n * m, false, false⟩ : ExtendedMantissa) >>> n = ⟨m, false, false⟩ := by
  induction n generalizing m with
  | zero =>
    rw [Nat.pow_zero, Nat.one_mul]
    rfl
  | succ n ih =>
    change ExtendedMantissa.shiftRightOne
      ((⟨2 ^ (n + 1) * m, false, false⟩ : ExtendedMantissa) >>> n) = _
    rw [Nat.pow_succ, Nat.mul_assoc, ih, ExtendedMantissa.shiftRightOne]
    simp

theorem log2_two_pow_mul (n : ℕ) {m : ℕ} (hm : 0 < m) : (2 ^ n * m).log2 = n + m.log2 := by
  induction n with
  | zero => simp
  | succ n ih =>
    rw [Nat.pow_succ', Nat.mul_assoc, Nat.log2_two_mul (by positivity), ih]
    omega

theorem targetExponent_eq {m : ℕ} {e : ℤ} (hpos : 0 < m) (hm : m < 2 ^ 53) (he : -1074 ≤ e)
    (hlead : 2 ^ 52 ≤ m ∨ e = -1074) :
    Format.binary64.targetExponent (totalExponent m e) = e := by
  have hlog : m.log2 < 53 := (Nat.log2_lt hpos.ne').2 hm
  change max ((m.log2 : ℤ) + 1 + e - 53) (-1074) = e
  obtain hlead | rfl := hlead
  · have := (Nat.le_log2 hpos.ne').2 hlead
    omega
  · omega

/-- A mantissa with zeros behind it is shifted back without a loss. -/
theorem shiftToTargetExponent_two_pow_mul {m n : ℕ} {e : ℤ} (hpos : 0 < m) (hm : m < 2 ^ 53)
    (he : -1074 ≤ e) (hlead : 2 ^ 52 ≤ m ∨ e = -1074) :
    shiftToTargetExponent .binary64 (2 ^ n * m) (-n + e) .exact = (⟨m, false, false⟩, e) := by
  have htotal : totalExponent (2 ^ n * m) (-n + e) = totalExponent m e := by
    rw [totalExponent, log2_two_pow_mul n hpos, totalExponent]
    push_cast
    ring
  have hshift : (e - (-n + e)).toNat = n := by omega
  rw [shiftToTargetExponent, htotal, targetExponent_eq hpos hm he hlead, shiftToExponent, hshift,
    ExtendedMantissa.ofMantissaAndAccuracy, shiftRight_two_pow_mul, neg_add_cancel_comm]

/-- One has the mantissa `2 ^ 52`, which a product is shifted back by. -/
theorem one_mul_of_canonical {u : UnpackedFloat} (h : Canonical u) (hone : 0 < 2 ^ 52) :
    UnpackedFloat.mul .binary64 (.finite .positive (2 ^ 52) (-52) hone) u = u := by
  cases h with
  | zero s => cases s <;> rfl
  | @finite s m e hpos hm he hlead =>
    have hfirst := shiftToTargetExponent_two_pow_mul (n := 52) hpos hm he hlead
    have hsecond := shiftToTargetExponent_two_pow_mul (n := 0) hpos hm he hlead
    have hsign : Sign.positive * s = s := by cases s <;> rfl
    rw [Nat.cast_ofNat] at hfirst
    rw [Nat.pow_zero, Nat.one_mul, Nat.cast_zero, neg_zero, zero_add] at hsecond
    rw [UnpackedFloat.mul, hsign, roundWithAccuracy, hfirst]
    dsimp only [ExtendedMantissa.roundedMantissa, ExtendedMantissa.accuracy,
      Accuracy.roundToNearestEven]
    rw [hsecond]
    exact dif_neg hpos.ne'

theorem one_mul_of_isFinite {x : Float} (hx : x.isFinite = true) : 1 * x = x := by
  obtain ⟨⟨bits, hvalid⟩⟩ := x
  obtain ⟨hcanonical, hpack⟩ := pack_unpack (b := bits.toBitVec) hx
  have hone : (1 : Float).toModel.unpack = .finite .positive (2 ^ 52) (-52) (by decide) := rfl
  change Float.ofModel (Float.Model.pack (UnpackedFloat.mul .binary64 (1 : Float).toModel.unpack
    (UnpackedFloat.unpack .binary64 bits.toBitVec))) = _
  rw [hone, one_mul_of_canonical hcanonical, Float.Model.pack, Float.ofModel.injEq,
    Float.Model.mk.injEq]
  exact UInt64.toBitVec_inj.1 hpack

theorem isZero_zero_mul {x : Float} (hx : x.isFinite = true) : Scalar.IsZero (0 * x) := by
  have hzero : (0 : Float).toModel.unpack = .zero .positive := rfl
  have hpack (s : Sign) : Scalar.IsZero (Float.ofModel (.pack (.zero s))) := by
    cases s <;> decide +kernel
  have hx : x.toModel.unpack.isFinite = true := hx
  change Scalar.IsZero (Float.ofModel (Float.Model.pack (UnpackedFloat.mul .binary64
    (0 : Float).toModel.unpack x.toModel.unpack)))
  rw [hzero]
  cases hu : x.toModel.unpack with
  | infinity | notANumber =>
    rw [hu] at hx
    cases hx
  | zero s => exact hpack _
  | finite s => exact hpack _

instance : Scalar.Orderly Float where
  not_lt_iff_le := not_lt_iff_le
  isFinite_zero := by decide +kernel
  isFinite_billionth := by decide +kernel
  one_mul := one_mul_of_isFinite
  isZero_zero_mul := isZero_zero_mul

end FloatScalar

end WholeBody
