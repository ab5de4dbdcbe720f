import SpaceCurve.Proofs.Conversions

/-!
# How far rounding goes

A product or a quotient of floats is rounded, and it is infinite when it is too large.  How large it
is before that is a rational number, and this is where one would like to argue: a part of a finite
float is finite, and fewer than all parts together are not more than the whole.  With floats neither
is clear, since each part may have been rounded up.

## What is here

* `size` — the size of a number, and `limit`, the least size that is rounded to infinity.
* `isFinite_pack_round` — **what is below the limit stays finite.**  With too large an exponent the
  bits that are cut off are known, so the size is known.
* `size_pack_round_le_roundedUp` — **rounding takes nothing far**: by less than one in the last of
  53 bits, or to the least size that has so many (`roundedUp`).
* `round_of_lt` — a mantissa of at most 53 bits is rounded to itself, so a natural number below
  `2^53` is held exactly: `unpack_ofNat`, `size_ofNat`.
* `isFinite_mul`, `div_ofNat` — what follows for a product of finite floats, and for a part of one.

Sizes are compared as they are held: `Held` says what the mantissa and the exponent of a finite
float are like, and `Held.unpack_pack` that packing keeps them.
-/

set_option autoImplicit false

namespace SpaceCurve
namespace Binary64

open Float.Model (UnpackedFloat Format)
open Float.Model.UnpackedFloat (Sign Accuracy ExtendedMantissa roundWithAccuracy)

/-! ## What is held -/

theorem toNat_implicit (m : BitVec 52) : (1#1 ++ m).toNat = 2 ^ 52 + m.toNat := by
  rw [BitVec.toNat_append, ← Nat.shiftLeft_add_eq_or_of_lt m.isLt]
  rfl

/-- A mantissa and an exponent as a float holds them: 53 bits, or the least exponent. -/
structure Held (m : Nat) (e : Int) : Prop where
  lt : m < 2 ^ 53
  le : e ≤ 971
  normal : 2 ^ 52 ≤ m ∨ e = -1074

theorem held_unpack {b : BitVec Format.binary64.numBits} {s : Sign} {m : Nat} {e : Int}
    {hm : 0 < m} (h : UnpackedFloat.unpack Format.binary64 b = .finite s m e hm) : Held m e := by
  have hwithin : Within 971 (UnpackedFloat.unpack Format.binary64 b) :=
    within_unpack (by rw [h]; rfl)
  rw [h] at hwithin
  refine ⟨hwithin.1, hwithin.2, ?_⟩
  simp only [UnpackedFloat.unpack] at h
  split at h
  · split at h <;> cases h
  · split at h
    · next hzero =>
      split at h
      · cases h
      · cases h
        right
        rw [hzero]
        rfl
    · cases h
      left
      rw [toNat_implicit]
      exact Nat.le_add_right _ _

/-- No float has a smaller exponent than the least one. -/
theorem le_exponent_unpack {b : BitVec Format.binary64.numBits} {s : Sign} {m : Nat} {e : Int}
    {hm : 0 < m} (h : UnpackedFloat.unpack Format.binary64 b = .finite s m e hm) : -1074 ≤ e := by
  simp only [UnpackedFloat.unpack] at h
  split at h
  · split at h <;> cases h
  · split at h
    · next hzero =>
      split at h
      · cases h
      · cases h
        rw [hzero]
        decide
    · next hzero =>
      have hpos : (UnpackedFloat.unpackExponent b).toNat ≠ 0 := fun h0 =>
        hzero (BitVec.eq_of_toNat_eq h0)
      have hbias : Format.binary64.exponentBias = 1023 := rfl
      cases h
      rw [hbias]
      omega

/-- A mantissa of 53 bits is held as it is. -/
theorem unpack_pack_normal {m : Nat} {e : Int} (s : Sign) (hm : 0 < m) (h52 : 2 ^ 52 ≤ m)
    (h53 : m < 2 ^ 53) (hle : -1074 ≤ e) (hle' : e ≤ 971) :
    (Float.Model.pack (.finite s m e hm)).unpack = .finite s m e hm := by
  show UnpackedFloat.unpack Format.binary64
    (UnpackedFloat.pack Format.binary64 (.finite s m e hm)) = _
  have hlog : m.log2 = 52 := (Nat.log2_eq_iff hm.ne').2 ⟨h52, h53⟩
  have hexp : (BitVec.ofNat 11 (e + 1075).toNat).toNat = (e + 1075).toNat := by
    rw [BitVec.toNat_ofNat, Nat.mod_eq_of_lt (by omega)]
  have hmantissa : (1#1 ++ BitVec.ofNat 52 m).toNat = m := by
    rw [toNat_implicit, BitVec.toNat_ofNat]
    omega
  rw [pack_finite, if_neg (by omega), if_pos hlog]
  have hmax : BitVec.ofNat 11 (e + 1075).toNat ≠ -1#11 := fun h => by
    have := congrArg BitVec.toNat h
    rw [hexp] at this
    have hmax : (-1#11 : BitVec 11).toNat = 2047 := rfl
    omega
  have hzero : BitVec.ofNat 11 (e + 1075).toNat ≠ 0#11 := fun h => by
    have := congrArg BitVec.toNat h
    rw [hexp] at this
    simp at this
    omega
  simp only [UnpackedFloat.unpack, UnpackedFloat.unpackExponent_packComponents,
    UnpackedFloat.unpackMantissa_packComponents, unpackSign_packComponents, if_neg hmax,
    if_neg hzero, hexp, hmantissa]
  have hsign : Sign.ofBitVec s.toBitVec = s := by cases s <;> rfl
  have hbias : (((e + 1075).toNat : Nat) : Int) -
      ((Format.binary64.exponentBias : Int) + (52 : Nat)) = e := by
    rw [show Format.binary64.exponentBias = 1023 from rfl]
    omega
  rw [UnpackedFloat.finite.injEq]
  exact ⟨hsign, rfl, hbias⟩

/-- A mantissa with fewer bits is held with the least exponent. -/
theorem unpack_pack_subnormal {m : Nat} {e : Int} (s : Sign) (hm : 0 < m) (h52 : m < 2 ^ 52)
    (he : e < 972) : (Float.Model.pack (.finite s m e hm)).unpack = .finite s m (-1074) hm := by
  show UnpackedFloat.unpack Format.binary64
    (UnpackedFloat.pack Format.binary64 (.finite s m e hm)) = _
  have hlog : m.log2 ≠ 52 := ((Nat.log2_lt hm.ne').2 h52).ne
  have hmantissa : (BitVec.ofNat 52 m).toNat = m := by
    rw [BitVec.toNat_ofNat, Nat.mod_eq_of_lt h52]
  have hzero : BitVec.ofNat 52 m ≠ 0#52 := fun h => by
    have := congrArg BitVec.toNat h
    rw [hmantissa] at this
    exact hm.ne' this
  have hmax : (0#11) ≠ -1#11 := by decide
  have hsign : Sign.ofBitVec s.toBitVec = s := by cases s <;> rfl
  rw [pack_finite, if_neg (by omega), if_neg hlog]
  simp only [UnpackedFloat.unpack, UnpackedFloat.unpackExponent_packComponents,
    UnpackedFloat.unpackMantissa_packComponents, unpackSign_packComponents, if_neg hmax, if_pos,
    dif_neg hzero]
  rw [UnpackedFloat.finite.injEq]
  exact ⟨hsign, hmantissa, rfl⟩

/-- What is held is packed as it is. -/
theorem Held.unpack_pack {m : Nat} {e : Int} (h : Held m e) (hle : -1074 ≤ e) (s : Sign)
    (hm : 0 < m) : (Float.Model.pack (.finite s m e hm)).unpack = .finite s m e hm := by
  have hmax := h.le
  by_cases h52 : 2 ^ 52 ≤ m
  · exact unpack_pack_normal s hm h52 h.lt hle hmax
  · obtain rfl := h.normal.resolve_left h52
    exact unpack_pack_subnormal s hm (by omega) (by omega)

theorem unpack_pack_zero (s : Sign) : (Float.Model.pack (.zero s)).unpack = .zero s := by
  cases s <;> rfl

/-! ## Exact rounding -/

/-- Shifting out zeros leaves no trace. -/
theorem shiftRight_mul_two_pow (m k : Nat) :
    ExtendedMantissa.ofMantissaAndAccuracy (m * 2 ^ k) .exact >>> k = ⟨m, false, false⟩ := by
  induction k generalizing m with
  | zero => rw [pow_zero, mul_one]; rfl
  | succ k ih =>
    have hstep : ExtendedMantissa.ofMantissaAndAccuracy (m * 2 ^ (k + 1)) .exact >>> (k + 1) =
        (ExtendedMantissa.ofMantissaAndAccuracy (2 * m * 2 ^ k) .exact >>> k).shiftRightOne := by
      rw [show m * 2 ^ (k + 1) = 2 * m * 2 ^ k by ring]
      rfl
    rw [hstep, ih, ExtendedMantissa.shiftRightOne]
    simp

/-- **What was shifted up from 53 bits is rounded to what it was.** -/
theorem roundWithAccuracy_mul_two_pow {m : Nat} {e : Int} (s : Sign) (hm : 0 < m)
    (h52 : 2 ^ 52 ≤ m) (h53 : m < 2 ^ 53) (hle : -1074 ≤ e) (k : Nat) :
    roundWithAccuracy Format.binary64 s (m * 2 ^ k) (e - k) .exact = .finite s m e hm := by
  have hlog : m.log2 = 52 := (Nat.log2_eq_iff hm.ne').2 ⟨h52, h53⟩
  have hexcess : excess (m * 2 ^ k) (e - k) = k := by
    rw [excess_eq, log2_mul_two_pow hm.ne']
    omega
  have hexcess' : excess m e = 0 := by
    rw [excess_eq]
    omega
  have hr : (shifted (m * 2 ^ k) (e - k) .exact).roundedMantissa = m := by
    rw [shifted, hexcess, shiftRight_mul_two_pow]
    rfl
  have he : e - k + excess (m * 2 ^ k) (e - k) = e := by rw [hexcess]; omega
  rw [roundWithAccuracy_eq s _ _ _ hr he]
  simp [hexcess', hm.ne']

/-- Shifted to 53 bits, a natural number has 53 bits. -/
theorem shifted_bounds {n : Nat} (hn : 0 < n) (h : n < 2 ^ 53) :
    2 ^ 52 ≤ n * 2 ^ (52 - n.log2) ∧ n * 2 ^ (52 - n.log2) < 2 ^ 53 := by
  have hlog : n.log2 < 53 := (Nat.log2_lt hn.ne').2 h
  have hlow : 2 ^ n.log2 * 2 ^ (52 - n.log2) = 2 ^ 52 := by
    rw [← pow_add, Nat.add_sub_cancel' (by omega)]
  have hhigh : 2 ^ (n.log2 + 1) * 2 ^ (52 - n.log2) = 2 ^ 53 := by
    rw [pow_succ', mul_assoc, hlow, ← pow_succ']
  exact ⟨hlow.symm.trans_le (Nat.mul_le_mul_right _ (Nat.log2_self_le hn.ne')),
    (Nat.mul_lt_mul_of_pos_right Nat.lt_log2_self (by positivity)).trans_eq hhigh⟩

/-- Unless the exponent is too small, a number is shifted to 53 bits and then rounded. -/
theorem round_shift (s : Sign) {m : Nat} {e : Int} (he : -1022 ≤ m.log2 + e) :
    UnpackedFloat.round Format.binary64 s m e = roundWithAccuracy Format.binary64 s
      (m * 2 ^ (52 - m.log2)) (e - (52 - m.log2 : Nat)) .exact := by
  have htarget : Format.binary64.targetExponent (Float.Model.totalExponent m e) =
      m.log2 + e - 52 := by
    rw [targetExponent_eq]
    omega
  have hshift : (e - (m.log2 + e - 52)).toNat = 52 - m.log2 := by omega
  rw [UnpackedFloat.round, htarget, UnpackedFloat.decreaseExponent, Nat.shiftLeft_eq, hshift]

/-- **A mantissa of at most 53 bits is rounded to itself.** -/
theorem round_of_lt (s : Sign) {m : Nat} {e : Int} (hm : 0 < m) (h : m < 2 ^ 53)
    (he : -1022 ≤ m.log2 + e) : UnpackedFloat.round Format.binary64 s m e =
      .finite s (m * 2 ^ (52 - m.log2)) (e - (52 - m.log2 : Nat)) (by positivity) := by
  obtain ⟨hlow, hhigh⟩ := shifted_bounds hm h
  have hlog : m.log2 < 53 := (Nat.log2_lt hm.ne').2 h
  rw [round_shift s he]
  simpa only [pow_zero, mul_one, Nat.cast_zero, sub_zero] using
    roundWithAccuracy_mul_two_pow s (by positivity) hlow hhigh
      (show -1074 ≤ e - (52 - m.log2 : Nat) by omega) 0

/-- A machine word of at most 53 bits is converted exactly. -/
theorem unpackedOfNat_eq {n : Nat} (hn : 0 < n) (h : n < 2 ^ 53) :
    UnpackedFloat.ofNat Format.binary64 n =
      .finite .positive (n * 2 ^ (52 - n.log2)) (n.log2 - 52) (by positivity) := by
  have hlog : n.log2 < 53 := (Nat.log2_lt hn.ne').2 h
  have he : (0 : Int) - (52 - n.log2 : Nat) = n.log2 - 52 := by omega
  rw [UnpackedFloat.ofNat, UnpackedFloat.ofInt, UnpackedFloat.normalize,
    Int.compare_eq_gt.2 (by omega)]
  show UnpackedFloat.round Format.binary64 .positive n 0 = _
  simp only [round_of_lt .positive hn h (show -1022 ≤ (n.log2 : Int) + 0 by omega), he]

theorem unpack_toFloat {n : Nat} (hn : 0 < n) (h : n < 2 ^ 53) :
    n.toUInt64.toFloat.toModel.unpack =
      .finite .positive (n * 2 ^ (52 - n.log2)) (n.log2 - 52) (by positivity) := by
  obtain ⟨hlow, hhigh⟩ := shifted_bounds hn h
  have hlog : n.log2 < 53 := (Nat.log2_lt hn.ne').2 h
  have hword : n.toUInt64.toNat = n := UInt64.toNat_ofNat_of_lt' (by simp [UInt64.size]; omega)
  show (Float.Model.pack (UnpackedFloat.ofNat Format.binary64 n.toUInt64.toNat)).unpack = _
  rw [hword, unpackedOfNat_eq hn h,
    unpack_pack_normal .positive (by positivity) hlow hhigh (by omega) (by omega)]

/-- **A natural number below `2^53` is held exactly.**  It goes through a machine word, and is
multiplied with one. -/
theorem unpack_ofNat {n : Nat} (hn : 0 < n) (h : n < 2 ^ 53) :
    (Float.ofNat n).toModel.unpack =
      .finite .positive (n * 2 ^ (52 - n.log2)) (n.log2 - 52) (by positivity) := by
  obtain ⟨hlow, hhigh⟩ := shifted_bounds hn h
  have hlog : n.log2 < 53 := (Nat.log2_lt hn.ne').2 h
  have hpos : 0 < n * 2 ^ (52 - n.log2) := by positivity
  have hsmall : n < 2 ^ 53 ∧ 0 ≤ 22 := ⟨h, by decide⟩
  have hone : (Float.ofBits 0x3FF0000000000000).toModel.unpack =
      .finite .positive (2 ^ 52) (-52) (Nat.two_pow_pos 52) := rfl
  show (Float.ofScientific n false 0).toModel.unpack = _
  rw [Float.ofScientific, dif_pos hsmall]
  show (Float.Model.pack (UnpackedFloat.mul Format.binary64 n.toUInt64.toFloat.toModel.unpack
    (Float.ofBits 0x3FF0000000000000).toModel.unpack)).unpack = _
  rw [hone, unpack_toFloat hn h]
  show (Float.Model.pack (roundWithAccuracy Format.binary64 .positive
    (n * 2 ^ (52 - n.log2) * 2 ^ 52) (n.log2 - 52 - (52 : Nat)) .exact)).unpack = _
  rw [roundWithAccuracy_mul_two_pow .positive hpos hlow hhigh (by omega) 52,
    unpack_pack_normal .positive hpos hlow hhigh (by omega) (by omega)]

/-! ## Sizes -/

/-- The size of a number: zero where it has none. -/
def size : UnpackedFloat → ℚ
  | .finite _ m e _ => m * 2 ^ e
  | _ => 0

theorem size_nonneg (u : UnpackedFloat) : 0 ≤ size u := by
  cases u with
  | finite s m e hm => exact mul_nonneg (Nat.cast_nonneg m) (zpow_nonneg (by norm_num) e)
  | _ => exact le_rfl

theorem size_finite (s : Sign) {m : Nat} (e : Int) (hm : 0 < m) :
    size (.finite s m e hm) = m * 2 ^ e := rfl

/-- Powers of two move between mantissa and exponent. -/
theorem mul_two_pow_mul_zpow (m k : Nat) (e : Int) :
    ((m * 2 ^ k : Nat) : ℚ) * 2 ^ e = m * 2 ^ (k + e) := by
  rw [zpow_add₀ (by norm_num), zpow_natCast]
  push_cast
  ring

theorem mul_zpow_le {c k m : Nat} {e : Int} (h : c * 2 ^ k ≤ m) :
    (c : ℚ) * 2 ^ (k + e) ≤ m * 2 ^ e := by
  rw [← mul_two_pow_mul_zpow]
  exact mul_le_mul_of_nonneg_right (Nat.cast_le.2 h) (zpow_nonneg (by norm_num) e)

theorem zpow_log2_le {m : Nat} (hm : 0 < m) (e : Int) :
    (2 : ℚ) ^ ((m.log2 : Int) + e) ≤ m * 2 ^ e := by
  simpa using mul_zpow_le (e := e) ((one_mul _).trans_le (Nat.log2_self_le hm.ne'))

/-- A natural number that is shifted to 53 bits is still the same. -/
theorem shifted_value {n : Nat} (hn : 0 < n) (h : n < 2 ^ 53) :
    ((n * 2 ^ (52 - n.log2) : Nat) : ℚ) * 2 ^ ((n.log2 : Int) - 52) = n := by
  have hlog : n.log2 < 53 := (Nat.log2_lt hn.ne').2 h
  have he : ((52 - n.log2 : Nat) : Int) + (n.log2 - 52) = 0 := by omega
  rw [mul_two_pow_mul_zpow, he, zpow_zero, mul_one]

theorem size_ofNat {n : Nat} (h : n < 2 ^ 53) : size (Float.ofNat n).toModel.unpack = n := by
  rcases Nat.eq_zero_or_pos n with rfl | hn
  · rfl
  · rw [unpack_ofNat hn h, size_finite, shifted_value hn h]

/-- The least size that is rounded to infinity: halfway between the greatest float and `2^1024`. -/
def limit : ℚ := (2 ^ 54 - 1) * 2 ^ (970 : Int)

theorem zpow_le_of_le {e f : Int} (h : e ≤ f) : (2 : ℚ) ^ e ≤ 2 ^ f :=
  zpow_le_zpow_right₀ (by norm_num) h

theorem lt_limit {c : ℚ} (h : c < 2 ^ 54 - 1) : c * 2 ^ (970 : Int) < limit :=
  mul_lt_mul_of_pos_right h (zpow_pos (by norm_num) _)

theorem limit_lt : limit < 2 ^ (1024 : Int) := by
  rw [show (1024 : Int) = (54 : Nat) + 970 by norm_num, zpow_add₀ (by norm_num), zpow_natCast]
  exact mul_lt_mul_of_pos_right (sub_one_lt _) (zpow_pos (by norm_num) _)

theorem Held.size_lt {m : Nat} {e : Int} (h : Held m e) : (m : ℚ) * 2 ^ e < limit := by
  have hm : (m : ℚ) ≤ 2 ^ 53 - 1 := by
    rw [le_sub_iff_add_le]
    exact_mod_cast h.lt
  calc (m : ℚ) * 2 ^ e ≤ (2 ^ 53 - 1) * 2 ^ (971 : Int) :=
        mul_le_mul hm (zpow_le_of_le h.le) (zpow_nonneg (by norm_num) e) (by norm_num)
    _ = (2 ^ 53 - 1) * 2 * 2 ^ (970 : Int) := by
        rw [show (971 : Int) = 1 + 970 by norm_num, zpow_add₀ (by norm_num), zpow_one, mul_assoc]
    _ < limit := lt_limit (by norm_num)

/-! ## Overflow -/

theorem isFinite_of_not {u : UnpackedFloat} (hnan : u.isNaN = false) (hinf : u.isInf = false) :
    u.isFinite = true := by
  cases u with
  | notANumber => cases hnan
  | infinity s => cases hinf
  | zero s => rfl
  | finite s m e hm => rfl

/-- A mantissa of which the first 53 bits and the next one are set is too large. -/
theorem le_of_roundedMantissa_eq_top {m k : Nat} {e : Int} {acc : Accuracy}
    (hk : excess m e = k + 1) (h : (shifted m e acc).roundedMantissa = 2 ^ 53) :
    (2 ^ 54 - 1) * 2 ^ k ≤ m := by
  have hlt : (shifted m e acc).mantissa < 2 ^ 53 := by
    rw [mantissa_shifted]
    exact shifted_lt m e
  obtain ⟨hmantissa, hbit⟩ := (roundedMantissa_eq_top_iff hlt).1 h
  have hm : (ExtendedMantissa.ofMantissaAndAccuracy m acc).mantissa = m := by
    match acc with
    | .exact | .inexact .lt | .inexact .eq | .inexact .gt => rfl
  rw [mantissa_shifted, hk, pow_succ, ← Nat.div_div_eq_div_mul] at hmantissa
  rw [shifted, hk, roundBit_shiftRight, hm, bne_iff_ne] at hbit
  have htop : m / 2 ^ k = 2 ^ 54 - 1 := by omega
  calc (2 ^ 54 - 1) * 2 ^ k = m / 2 ^ k * 2 ^ k := by rw [htop]
    _ ≤ m := Nat.div_mul_le_self m _

/-- **What is below the limit is not rounded to infinity.** -/
theorem isFinite_pack_round {m : Nat} {e : Int} (s : Sign) (acc : Accuracy)
    (he : 53 ≤ m.log2 ∨ e ≤ 970) (hlt : (m : ℚ) * 2 ^ e < limit) :
    (Float.Model.pack (roundWithAccuracy Format.binary64 s m e acc)).unpack.isFinite = true := by
  -- an exponent out of range is due to the excess, so the size of the mantissa is known
  have hexcess : 971 ≤ e + excess m e → ∃ k, excess m e = k + 1 ∧ m.log2 = 53 + k := by
    intro hlarge
    rw [excess_eq] at hlarge ⊢
    exact ⟨m.log2 - 53, by omega, by omega⟩
  have hbelow : ¬ 972 ≤ e + excess m e := by
    intro hlarge
    obtain ⟨k, hk, hlog⟩ := hexcess (by omega)
    have hm : m ≠ 0 := by
      rintro rfl
      rw [Nat.log2_zero] at hlog
      omega
    have hle := mul_zpow_le (c := 1) (e := e) ((one_mul _).trans_le (Nat.log2_self_le hm))
    have hpow : (2 : ℚ) ^ (1024 : Int) ≤ 2 ^ ((m.log2 : Int) + e) := zpow_le_of_le (by omega)
    rw [Nat.cast_one, one_mul] at hle
    exact absurd hlt (not_lt.2 (limit_lt.le.trans (hpow.trans hle)))
  have hcarry : e + excess m e = 971 → (shifted m e acc).roundedMantissa ≠ 2 ^ 53 := by
    intro heq htop
    obtain ⟨k, hk, -⟩ := hexcess (by omega)
    have hle := mul_zpow_le (e := e) (le_of_roundedMantissa_eq_top hk htop)
    have hexp : (k : Int) + e = 970 := by omega
    have hones : ((2 ^ 54 - 1 : Nat) : ℚ) = 2 ^ 54 - 1 := by norm_num
    rw [hexp, hones] at hle
    exact absurd hlt (not_lt.2 hle)
  refine isFinite_of_not ?_ ?_
  · rw [isNaN_unpack_pack]
    obtain ⟨-, h⟩ | ⟨_, -, h⟩ | ⟨-, h⟩ := roundWithAccuracy_cases s m e acc rfl rfl <;>
    · rw [h]
      rfl
  · obtain ⟨-, h⟩ | ⟨hpos, h53, h⟩ | ⟨htop, h⟩ := roundWithAccuracy_cases s m e acc rfl rfl
    · rw [h]
      cases s <;> rfl
    · rw [h, Bool.eq_false_iff]
      exact fun hinf => hbelow ((isInf_unpack_pack_finite _ _ _ _ h53).1 hinf)
    · rw [h, Bool.eq_false_iff]
      intro hinf
      have := (isInf_unpack_pack_finite _ _ _ _ (by decide)).1 hinf
      exact hcarry (by omega) htop

/-! ## Products -/

theorem Held.log2_le {m : Nat} {e : Int} (h : Held m e) (hm : 0 < m) : m.log2 ≤ 52 := by
  have hlt := (Nat.log2_lt hm.ne').2 h.lt
  omega

/-- The product of two mantissas has enough bits, or its exponent is small. -/
theorem Held.mul {m n : Nat} {e f : Int} (h : Held m e) (h' : Held n f) :
    53 ≤ (m * n).log2 ∨ e + f ≤ 970 := by
  have hle := h.le
  have hle' := h'.le
  rcases h.normal with hm | rfl
  · rcases h'.normal with hn | rfl
    · left
      have hbits : 2 ^ 52 * 2 ^ 52 ≤ m * n := Nat.mul_le_mul hm hn
      exact (Nat.le_log2 (by omega)).2 (by omega)
    · right
      omega
  · right
    omega

theorem exists_of_isFinite {u : UnpackedFloat} (h : u.isFinite = true) :
    (∃ s, u = .zero s) ∨ ∃ s m e hm, u = .finite s m e hm := by
  cases u with
  | notANumber => cases h
  | infinity s => cases h
  | zero s => exact .inl ⟨s, rfl⟩
  | finite s m e hm => exact .inr ⟨s, m, e, hm, rfl⟩

/-- **A product is finite if the sizes allow it.** -/
theorem isFinite_mul {x y : Float} (hx : x.isFinite = true) (hy : y.isFinite = true)
    (hlt : size x.toModel.unpack * size y.toModel.unpack < limit) : (x * y).isFinite = true := by
  show (Float.Model.pack
    (x.toModel.unpack.mul Format.binary64 y.toModel.unpack)).unpack.isFinite = true
  obtain ⟨s, hu⟩ | ⟨s, m, e, hm, hu⟩ := exists_of_isFinite hx
  · obtain ⟨s', hv⟩ | ⟨s', n, f, hn, hv⟩ := exists_of_isFinite hy <;>
    · rw [hu, hv]
      exact congrArg UnpackedFloat.isFinite (unpack_pack_zero (s * s'))
  · obtain ⟨s', hv⟩ | ⟨s', n, f, hn, hv⟩ := exists_of_isFinite hy
    · rw [hu, hv]
      exact congrArg UnpackedFloat.isFinite (unpack_pack_zero (s * s'))
    · rw [hu, hv, size_finite, size_finite] at hlt
      have hproduct : ((m * n : Nat) : ℚ) * 2 ^ (e + f) = m * 2 ^ e * (n * 2 ^ f) := by
        rw [zpow_add₀ (by norm_num), Nat.cast_mul]
        ring
      rw [hu, hv]
      exact isFinite_pack_round (s * s') .exact ((held_unpack hu).mul (held_unpack hv))
        (hproduct.trans_lt hlt)

/-! ## Quotients -/

/-- How far a size may be rounded up: by one in the last of 53 bits, or to the least size that has
as many. -/
def roundedUp (q : ℚ) : ℚ := max (q * (1 + 2 ^ (-52 : Int))) (2 ^ (-1022 : Int))

theorem roundedUp_le_roundedUp {q r : ℚ} (h : q ≤ r) : roundedUp q ≤ roundedUp r :=
  max_le_max_right _ (mul_le_mul_of_nonneg_right h (by positivity))

/-- Packing makes nothing larger. -/
theorem size_pack_le {s : Sign} {m : Nat} {e : Int} (hm : 0 < m) (h53 : m < 2 ^ 53)
    (hle : -1074 ≤ e) : size (Float.Model.pack (.finite s m e hm)).unpack ≤ m * 2 ^ e := by
  by_cases he : 972 ≤ e
  · have hinf := (isInf_unpack_pack_finite s m e hm h53).2 he
    have hsize : size (Float.Model.pack (.finite s m e hm)).unpack = 0 := by
      cases hu : (Float.Model.pack (.finite s m e hm)).unpack with
      | finite s' n f hn => rw [hu] at hinf; cases hinf
      | _ => rfl
    rw [hsize]
    exact mul_nonneg (Nat.cast_nonneg m) (zpow_nonneg (by norm_num) e)
  · by_cases h52 : 2 ^ 52 ≤ m
    · rw [unpack_pack_normal s hm h52 h53 hle (by omega), size_finite]
    · rw [unpack_pack_subnormal s hm (by omega) (by omega), size_finite]
      exact mul_le_mul_of_nonneg_left (zpow_le_of_le hle) (Nat.cast_nonneg m)

/-- What has been rounded is at most one unit in its last place above what has been cut off. -/
theorem size_pack_round_le {m : Nat} {e : Int} (s : Sign) (acc : Accuracy) :
    size (Float.Model.pack (roundWithAccuracy Format.binary64 s m e acc)).unpack ≤
      ((m / 2 ^ excess m e : Nat) + 1) * 2 ^ (e + excess m e) := by
  have hmin : -1074 ≤ e + excess m e := by
    rw [excess_eq]
    omega
  have hrounded : ((shifted m e acc).roundedMantissa : ℚ) ≤ (m / 2 ^ excess m e : Nat) + 1 := by
    have h := (roundedMantissa_bounds (shifted m e acc)).2
    rw [mantissa_shifted] at h
    exact_mod_cast h
  have hpow : (0 : ℚ) ≤ 2 ^ (e + excess m e) := zpow_nonneg (by norm_num) _
  refine le_trans ?_ (mul_le_mul_of_nonneg_right hrounded hpow)
  obtain ⟨-, h⟩ | ⟨hpos, h53, h⟩ | ⟨htop, h⟩ := roundWithAccuracy_cases s m e acc rfl rfl
  · rw [h, unpack_pack_zero]
    exact mul_nonneg (Nat.cast_nonneg _) hpow
  · rw [h]
    exact size_pack_le hpos h53 hmin
  · rw [h, htop]
    refine (size_pack_le _ (by decide) (by omega)).trans_eq ?_
    rw [zpow_add_one₀ (by norm_num)]
    push_cast
    ring

/-- With fewer than 53 bits left, the exponent is the least one. -/
theorem le_div_excess {m : Nat} {e : Int} (h : 52 ≤ m.log2 ∨ e ≤ -1074)
    (hne : e + excess m e ≠ -1074) : 2 ^ 52 ≤ m / 2 ^ excess m e := by
  have hlog : m.log2 = 52 + excess m e := by
    rw [excess_eq] at hne ⊢
    omega
  have hm : m ≠ 0 := by
    rintro rfl
    rw [Nat.log2_zero] at hlog
    omega
  rw [Nat.le_div_iff_mul_le (by positivity), ← pow_add, ← hlog]
  exact Nat.log2_self_le hm

/-- **Rounding takes nothing far.** -/
theorem size_pack_round_le_roundedUp {m : Nat} {e : Int} (s : Sign) (acc : Accuracy)
    (h : 52 ≤ m.log2 ∨ e ≤ -1074) :
    size (Float.Model.pack (roundWithAccuracy Format.binary64 s m e acc)).unpack ≤
      roundedUp (m * 2 ^ e) := by
  refine (size_pack_round_le s acc).trans ?_
  have hpow : (0 : ℚ) ≤ 2 ^ (e + excess m e) := zpow_nonneg (by norm_num) _
  by_cases h52 : 2 ^ 52 ≤ m / 2 ^ excess m e
  · -- one in the last of 53 bits
    refine le_trans ?_ (le_max_left _ _)
    have hcut := mul_zpow_le (e := e) (Nat.div_mul_le_self m (2 ^ excess m e))
    rw [add_comm (excess m e : Int)] at hcut
    have hunit : ((m / 2 ^ excess m e : Nat) : ℚ) + 1 ≤
        (m / 2 ^ excess m e : Nat) * (1 + 2 ^ (-52 : Int)) := by
      have hle : (4503599627370496 : ℚ) ≤ (m / 2 ^ excess m e : Nat) := by exact_mod_cast h52
      norm_num
      linarith only [hle]
    calc ((m / 2 ^ excess m e : Nat) + 1 : ℚ) * 2 ^ (e + excess m e)
        ≤ (m / 2 ^ excess m e : Nat) * (1 + 2 ^ (-52 : Int)) * 2 ^ (e + excess m e) :=
          mul_le_mul_of_nonneg_right hunit hpow
      _ = (m / 2 ^ excess m e : Nat) * 2 ^ (e + excess m e) * (1 + 2 ^ (-52 : Int)) := by ring
      _ ≤ m * 2 ^ e * (1 + 2 ^ (-52 : Int)) :=
          mul_le_mul_of_nonneg_right hcut (by positivity)
  · -- with fewer bits the exponent is the least one
    refine le_trans ?_ (le_max_right _ _)
    have hexp : e + excess m e = -1074 := by
      by_contra hne
      exact h52 (le_div_excess h hne)
    have hle : ((m / 2 ^ excess m e : Nat) : ℚ) + 1 ≤ 2 ^ (52 : Int) := by
      exact_mod_cast Nat.lt_of_not_le h52
    rw [hexp]
    calc ((m / 2 ^ excess m e : Nat) + 1 : ℚ) * 2 ^ (-1074 : Int)
        ≤ 2 ^ (52 : Int) * 2 ^ (-1074 : Int) :=
          mul_le_mul_of_nonneg_right hle (zpow_nonneg (by norm_num) _)
      _ = 2 ^ (-1022 : Int) := by rw [← zpow_add₀ (by norm_num)]; norm_num

/-- The quotient of two mantissas before it is rounded: the first is shifted up by so much that its
exponent is not too large, and unless that is the least one the quotient has 53 bits. -/
theorem exists_divCore {m n : Nat} (e f : Int) (hm : 0 < m) (hn : 0 < n) :
    ∃ (k : Nat) (t : Int), UnpackedFloat.divCore Format.binary64 m e n f =
        (m * 2 ^ k / n, t, UnpackedFloat.accuracyOfFraction (m * 2 ^ k % n) n) ∧
      k + t = e - f ∧
      t ≤ max ((m.log2 : Int) + e - (n.log2 + f) - 53) (-1074) ∧
      (2 ^ 52 ≤ m * 2 ^ k / n ∨ t ≤ -1074) := by
  have htarget : Format.binary64.targetExponent
      (Float.Model.totalExponent m e - Float.Model.totalExponent n f) =
        max ((m.log2 : Int) + e - (n.log2 + f) - 53) (-1074) := by
    have hmin : Format.binary64.minExponent = -1074 := rfl
    have hbits : (Format.binary64.mantissaBits : Int) = 53 := rfl
    rw [Format.targetExponent, Float.Model.totalExponent, Float.Model.totalExponent, hmin, hbits]
    omega
  obtain ⟨t, ht⟩ : ∃ t, t = min (e - f) (max ((m.log2 : Int) + e - (n.log2 + f) - 53) (-1074)) :=
    ⟨_, rfl⟩
  obtain ⟨k, hk⟩ : ∃ k : Nat, k = (e - f - t).toNat := ⟨_, rfl⟩
  refine ⟨k, t, ?_, by omega, by omega, ?_⟩
  · rw [UnpackedFloat.divCore, htarget, ← ht, ← hk, Nat.shiftLeft_eq]
  · by_cases hlarge : t ≤ -1074
    · exact .inr hlarge
    · left
      have hlog : n.log2 + 1 + 52 ≤ m.log2 + k := by omega
      rw [Nat.le_div_iff_mul_le hn]
      calc 2 ^ 52 * n ≤ 2 ^ 52 * 2 ^ (n.log2 + 1) :=
            Nat.mul_le_mul_left _ Nat.lt_log2_self.le
        _ = 2 ^ (n.log2 + 1 + 52) := by rw [← pow_add, add_comm]
        _ ≤ 2 ^ (m.log2 + k) := Nat.pow_le_pow_right (by norm_num) hlog
        _ = 2 ^ m.log2 * 2 ^ k := pow_add _ _ _
        _ ≤ m * 2 ^ k := Nat.mul_le_mul_right _ (Nat.log2_self_le hm.ne')

/-- Shifting the first mantissa up leaves the quotient as it is. -/
theorem div_mul_zpow (m n : Nat) {e f t : Int} {k : Nat} (h : k + t = e - f) :
    ((m * 2 ^ k : Nat) : ℚ) / n * 2 ^ t = m * 2 ^ e / (n * 2 ^ f) := by
  have he : e = k + t + f := by omega
  have hf : (2 : ℚ) ^ f ≠ 0 := zpow_ne_zero f (by norm_num)
  rw [he, zpow_add₀ (by norm_num), ← mul_assoc, mul_div_mul_right _ _ hf, ← mul_two_pow_mul_zpow,
    div_mul_eq_mul_div]

/-- **A part of a finite float is finite, and not much larger than the part of its size.** -/
theorem div_ofNat {x : Float} (hx : x.isFinite = true) {n : Nat} (hn : 0 < n) (h : n < 2 ^ 53) :
    (x / Float.ofNat n).isFinite = true ∧
      size (x / Float.ofNat n).toModel.unpack ≤ roundedUp (size x.toModel.unpack / n) := by
  have hlog : n.log2 < 53 := (Nat.log2_lt hn.ne').2 h
  have hn' : 0 < n * 2 ^ (52 - n.log2) := by positivity
  show (Float.Model.pack (x.toModel.unpack.div Format.binary64
      (Float.ofNat n).toModel.unpack)).unpack.isFinite = true ∧
    size (Float.Model.pack (x.toModel.unpack.div Format.binary64
      (Float.ofNat n).toModel.unpack)).unpack ≤ _
  have hsize := size_ofNat h
  rw [unpack_ofNat hn h] at hsize ⊢
  rw [size_finite] at hsize
  obtain ⟨s, hu⟩ | ⟨s, m, e, hm, hu⟩ := exists_of_isFinite hx
  · rw [hu]
    show (Float.Model.pack (.zero (s / .positive))).unpack.isFinite = true ∧
      size (Float.Model.pack (.zero (s / .positive))).unpack ≤ _
    rw [unpack_pack_zero]
    exact ⟨rfl, (zpow_nonneg (by norm_num) _).trans (le_max_right _ _)⟩
  · have hheld := held_unpack hu
    obtain ⟨k, t, hcore, hkt, ht, hbits⟩ := exists_divCore e (n.log2 - 52) hm hn'
    obtain ⟨q, hq⟩ : ∃ q, q = m * 2 ^ k / (n * 2 ^ (52 - n.log2)) := ⟨_, rfl⟩
    rw [← hq] at hcore hbits
    have hle : (q : ℚ) * 2 ^ t ≤ m * 2 ^ e / n := by
      have hcut : (q : ℚ) ≤ (m * 2 ^ k : Nat) / (n * 2 ^ (52 - n.log2) : Nat) := by
        rw [hq]
        exact Nat.cast_div_le
      have hvalue := div_mul_zpow m (n * 2 ^ (52 - n.log2)) hkt
      rw [hsize] at hvalue
      exact (mul_le_mul_of_nonneg_right hcut (zpow_nonneg (by norm_num) t)).trans_eq hvalue
    rw [log2_mul_two_pow hn.ne'] at ht
    have hdiv : UnpackedFloat.div Format.binary64 (.finite s m e hm)
        (.finite .positive (n * 2 ^ (52 - n.log2)) (n.log2 - 52) hn') =
        roundWithAccuracy Format.binary64 (s / .positive) q t
          (UnpackedFloat.accuracyOfFraction (m * 2 ^ k % (n * 2 ^ (52 - n.log2)))
            (n * 2 ^ (52 - n.log2))) := by
      simp only [UnpackedFloat.div, hcore]
    have hn1 : (1 : ℚ) ≤ n := by exact_mod_cast hn
    have hpart : (m : ℚ) * 2 ^ e / n ≤ m * 2 ^ e :=
      div_le_self (mul_nonneg (Nat.cast_nonneg m) (zpow_nonneg (by norm_num) e)) hn1
    have hmlog := hheld.log2_le hm
    have hexp := hheld.le
    have hqlog : 52 ≤ q.log2 ∨ t ≤ -1074 := hbits.imp_left fun h52 => (Nat.le_log2 (by omega)).2 h52
    rw [hu, hdiv, size_finite]
    refine ⟨isFinite_pack_round _ _ (.inr (by omega)) ?_, ?_⟩
    · exact (hle.trans hpart).trans_lt hheld.size_lt
    · exact (size_pack_round_le_roundedUp _ _ hqlog).trans (roundedUp_le_roundedUp hle)

/-! ## Finite floats -/

theorem size_lt_limit {x : Float} (hx : x.isFinite = true) : size x.toModel.unpack < limit := by
  obtain ⟨s, hu⟩ | ⟨s, m, e, hm, hu⟩ := exists_of_isFinite hx
  · rw [hu]
    exact mul_pos (by norm_num) (zpow_pos (by norm_num) _)
  · rw [hu]
    exact (held_unpack hu).size_lt

theorem isFinite_add_zero {x : Float} (hx : x.isFinite = true) : (x + 0.0).isFinite = true := by
  show (Float.Model.pack (x.toModel.unpack.add Format.binary64
    (0.0 : Float).toModel.unpack)).unpack.isFinite = true
  obtain ⟨s, hu⟩ | ⟨s, m, e, hm, hu⟩ := exists_of_isFinite hx
  · rw [hu]
    cases s <;> rfl
  · rw [hu]
    show (Float.Model.pack (.finite s m e hm)).unpack.isFinite = true
    rw [(held_unpack hu).unpack_pack (le_exponent_unpack hu)]
    rfl

theorem isFinite_ofNat {n : Nat} (h : n < 2 ^ 53) : (Float.ofNat n).isFinite = true := by
  show (Float.ofNat n).toModel.unpack.isFinite = true
  rcases Nat.eq_zero_or_pos n with rfl | hn
  · rfl
  · rw [unpack_ofNat hn h]
    rfl

theorem eq_of_toModel {x y : Float} (h : x.toModel = y.toModel) : x = y := by
  cases x; cases y; cases h; rfl

/-- Zero times a finite float, and nothing added: zero. -/
theorem zero_mul_add_zero {x y : Float} {s : Sign} (hx : x.toModel.unpack = .zero s)
    (hy : y.isFinite = true) : x * y + 0.0 = 0.0 := by
  have hsum : ∀ s : Sign, (Float.Model.pack ((Float.Model.pack (.zero s)).unpack.add Format.binary64
      (0.0 : Float).toModel.unpack)) = (0.0 : Float).toModel := by
    intro s
    cases s <;> rfl
  refine eq_of_toModel ?_
  show Float.Model.pack ((Float.Model.pack (x.toModel.unpack.mul Format.binary64
    y.toModel.unpack)).unpack.add Format.binary64 (0.0 : Float).toModel.unpack) = _
  rw [hx]
  obtain ⟨s', hv⟩ | ⟨s', n, f, hn, hv⟩ := exists_of_isFinite hy <;>
  · rw [hv]
    exact hsum (s * s')

/-- Zero times a float that is not finite is no number. -/
theorem isFinite_zero_mul_add_zero {x y : Float} {s : Sign} (hx : x.toModel.unpack = .zero s)
    (hy : y.isFinite = false) : (x * y + 0.0).isFinite = false := by
  replace hy : y.toModel.unpack.isFinite = false := hy
  have hproduct : x.toModel.unpack.mul Format.binary64 y.toModel.unpack = .notANumber := by
    rw [hx]
    cases hv : y.toModel.unpack with
    | notANumber => simp only [UnpackedFloat.mul]
    | infinity s' => simp only [UnpackedFloat.mul]
    | zero s' => rw [hv] at hy; cases hy
    | finite s' n f hn => rw [hv] at hy; cases hy
  show (Float.Model.pack ((Float.Model.pack (x.toModel.unpack.mul Format.binary64
    y.toModel.unpack)).unpack.add Format.binary64 (0.0 : Float).toModel.unpack)).unpack.isFinite = _
  rw [hproduct]
  rfl

/-- A part of a float is finite just if the float is. -/
theorem isFinite_div_ofNat (x : Float) {n : Nat} (hn : 0 < n) (h : n < 2 ^ 53) :
    (x / Float.ofNat n).isFinite = x.isFinite := by
  cases hx : x.isFinite with
  | true => exact (div_ofNat hx hn h).1
  | false =>
    replace hx : x.toModel.unpack.isFinite = false := hx
    show (Float.Model.pack (x.toModel.unpack.div Format.binary64
      (Float.ofNat n).toModel.unpack)).unpack.isFinite = false
    rw [unpack_ofNat hn h]
    cases hu : x.toModel.unpack with
    | notANumber =>
      simp only [UnpackedFloat.div]
      rfl
    | infinity s =>
      simp only [UnpackedFloat.div, unpack_pack_infinity]
      rfl
    | zero s => rw [hu] at hx; cases hx
    | finite s m e hm => rw [hu] at hx; cases hx

end Binary64
end SpaceCurve
