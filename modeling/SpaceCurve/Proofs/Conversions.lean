import SpaceCurve.Decimal.Numeral
import SpaceCurve.Proofs.FloatOrder

/-!
# Integers and numerals as floats

When a number becomes a float.

* `ofInt?_eq_none_iff` — an integer has no float just if its size is at least `2^1024 - 2^970`.  This
  lies halfway between the greatest float and `2^1024`, and a tie goes up there.
* `Numeral.decimal_unsigned` — a numeral, which has no sign, is a float that is not `nan` and not
  below zero.  It may be infinite.

Both follow from what rounding does to a mantissa, `roundWithAccuracy_cases`: it is shifted down to
53 bits, rounded by the bits that were shifted out, and when it has then grown to `2^53`, shifted
once more.  So the exponent of the result is known up to that carry.  A float is infinite when its
exponent is too large, `isInf_unpack_pack_finite`, and whether an integer of 1024 bits gets there is
a question of the carry alone, `carries_iff`.

An integer below `2^53` takes another way, through a machine word and a product with one.  It needs
no more than a bound on its size, `Within`, which packing and rounding respect.
-/

set_option autoImplicit false

namespace SpaceCurve
namespace Binary64

open Float.Model (UnpackedFloat Format)
open Float.Model.UnpackedFloat (Sign Accuracy ExtendedMantissa roundWithAccuracy)

/-! ## Packing -/

/-- A finite number below `2^(b + 53)`: at most 53 bits, and an exponent of at most `b`. -/
def Within (b : Int) : UnpackedFloat → Prop
  | .zero _ => True
  | .finite _ m e _ => m < 2 ^ 53 ∧ e ≤ b
  | _ => False

theorem Within.isInf {b : Int} {u : UnpackedFloat} (h : Within b u) : u.isInf = false := by
  cases u with
  | notANumber => exact h.elim
  | infinity s => exact h.elim
  | zero s => rfl
  | finite s m e hm => rfl

/-- What has an exponent in range is finite, and the exponent bounds it. -/
theorem within_unpack_of_exponent {b : BitVec Format.binary64.numBits} {x : Int}
    (h : UnpackedFloat.unpackExponent b ≠ -BitVec.ofNat _ 1) (hx : -1074 ≤ x)
    (hb : ((UnpackedFloat.unpackExponent b).toNat : Int) - 1075 ≤ x) :
    Within x (UnpackedFloat.unpack Format.binary64 b) := by
  simp only [UnpackedFloat.unpack, if_neg h]
  split
  · next hzero =>
    split
    · trivial
    · refine ⟨(BitVec.isLt _).trans (by decide), ?_⟩
      rw [hzero]
      simpa [Format.exponentBias] using hx
  · refine ⟨(BitVec.isLt _).trans_eq rfl, ?_⟩
    simpa [Format.exponentBias] using hb

/-- The bits of a finite number. -/
theorem pack_finite (s : Sign) (m : Nat) (e : Int) (hm : 0 < m) :
    UnpackedFloat.pack Format.binary64 (.finite s m e hm) =
      if 972 ≤ e then UnpackedFloat.packedInfinity Format.binary64 s
      else UnpackedFloat.packComponents Format.binary64 s
        (if m.log2 = 52 then BitVec.ofNat _ (e + 1075).toNat else 0#_) (BitVec.ofNat _ m) := by
  have hbias : e + Format.binary64.exponentBias + (52 : Nat) = e + 1075 := by
    rw [show Format.binary64.exponentBias = 1023 from rfl]
    omega
  have hbits : m.log2 + 1 = Format.binary64.mantissaBits ↔ m.log2 = 52 := by
    rw [show Format.binary64.mantissaBits = 53 from rfl]
    omega
  simp only [UnpackedFloat.pack, hbias, hbits]
  by_cases he : 972 ≤ e
  · rw [if_pos he, if_pos (by omega)]
  · rw [if_neg he, if_neg (by omega)]
    split <;> rfl

theorem within_unpack_pack {b : Int} {u : UnpackedFloat} (h : Within b u) (hb : -1074 ≤ b)
    (hb' : b < 972) : Within b (Float.Model.pack u).unpack := by
  cases u with
  | notANumber => exact h.elim
  | infinity s => exact h.elim
  | zero s => cases s <;> trivial
  | finite s m e hm =>
    obtain ⟨-, he⟩ := h
    show Within b (UnpackedFloat.unpack Format.binary64
      (UnpackedFloat.pack Format.binary64 (.finite s m e hm)))
    rw [pack_finite, if_neg (by omega)]
    have hbits : (if m.log2 = 52 then BitVec.ofNat Format.binary64.exponentBits (e + 1075).toNat
        else 0#_).toNat ≤ (e + 1075).toNat := by
      split
      · exact Nat.mod_le _ _
      · exact Nat.zero_le _
    refine within_unpack_of_exponent ?_ hb ?_
    · rw [UnpackedFloat.unpackExponent_packComponents]
      intro h
      have hmax : (-BitVec.ofNat 11 1).toNat = 2047 := rfl
      rw [h, hmax] at hbits
      omega
    · rw [UnpackedFloat.unpackExponent_packComponents]
      omega

/-- **A finite number is packed as an infinity just if its exponent is too large.** -/
theorem isInf_unpack_pack_finite (s : Sign) (m : Nat) (e : Int) (hm : 0 < m) (h53 : m < 2 ^ 53) :
    (Float.Model.pack (.finite s m e hm)).unpack.isInf = true ↔ 972 ≤ e := by
  by_cases he : 972 ≤ e
  · have hpack : Float.Model.pack (.finite s m e hm) = Float.Model.pack (.infinity s) := by
      have hbits : UnpackedFloat.pack Format.binary64 (.finite s m e hm) =
          UnpackedFloat.pack Format.binary64 (.infinity s) := by
        rw [pack_finite, if_pos he]
        rfl
      simp only [Float.Model.pack, hbits]
    rw [hpack, unpack_pack_infinity]
    simp [UnpackedFloat.isInf, he]
  · have hwithin : Within 971 (Float.Model.pack (.finite s m e hm)).unpack :=
      within_unpack_pack ⟨h53, by omega⟩ (by omega) (by omega)
    rw [hwithin.isInf]
    simp [he]

/-- What is finite is within the range. -/
theorem within_unpack {b : BitVec Format.binary64.numBits}
    (h : (UnpackedFloat.unpack Format.binary64 b).isFinite = true) :
    Within 971 (UnpackedFloat.unpack Format.binary64 b) := by
  have hexp : UnpackedFloat.unpackExponent b ≠ -BitVec.ofNat _ 1 := by
    intro hexp
    simp only [UnpackedFloat.unpack, if_pos hexp] at h
    split at h <;> cases h
  have hmax : (UnpackedFloat.unpackExponent b).toNat ≠ 2047 :=
    fun hmax => hexp (BitVec.eq_of_toNat_eq hmax)
  have hlt : (UnpackedFloat.unpackExponent b).toNat < 2048 :=
    (UnpackedFloat.unpackExponent b).isLt
  exact within_unpack_of_exponent hexp (by decide) (by omega)

/-- Negating changes the sign alone. -/
theorem isInf_neg (x : Float) : (-x).isInf = x.isInf := by
  show (Float.Model.pack x.toModel.unpack.neg).unpack.isInf = x.toModel.unpack.isInf
  cases hx : x.toModel.unpack with
  | notANumber => rfl
  | infinity s => cases s <;> rfl
  | zero s => cases s <;> rfl
  | finite s m e hm =>
    have hwithin : Within 971 x.toModel.unpack := within_unpack (congrArg UnpackedFloat.isFinite hx)
    rw [hx] at hwithin
    exact (within_unpack_pack (u := .finite (-s) m e hm) hwithin (by decide) (by decide)).isInf

/-! ## Rounding -/

theorem mantissa_shiftRight (em : ExtendedMantissa) (k : Nat) :
    (em >>> k).mantissa = em.mantissa / 2 ^ k := by
  induction k with
  | zero => exact (Nat.div_one _).symm
  | succ k ih =>
    show (em >>> k).mantissa / 2 = em.mantissa / 2 ^ (k + 1)
    rw [ih, Nat.div_div_eq_div_mul, ← Nat.pow_succ]

theorem roundBit_shiftRight (em : ExtendedMantissa) (k : Nat) :
    (em >>> (k + 1)).roundBit = (em.mantissa / 2 ^ k % 2 != 0) := by
  show ((em >>> k).mantissa % 2 != 0) = (em.mantissa / 2 ^ k % 2 != 0)
  rw [mantissa_shiftRight]

theorem roundedMantissa_bounds (em : ExtendedMantissa) :
    em.mantissa ≤ em.roundedMantissa ∧ em.roundedMantissa ≤ em.mantissa + 1 := by
  obtain ⟨m, r, s⟩ := em
  cases r <;> cases s <;>
    simp only [ExtendedMantissa.roundedMantissa, ExtendedMantissa.accuracy,
      Accuracy.roundToNearestEven] <;> omega

/-- A mantissa of 53 bits is rounded up to `2^53` just if all its bits and the next one are set:
the last of them is odd, so a tie goes up. -/
theorem roundedMantissa_eq_top_iff {em : ExtendedMantissa} (h : em.mantissa < 2 ^ 53) :
    em.roundedMantissa = 2 ^ 53 ↔ em.mantissa = 2 ^ 53 - 1 ∧ em.roundBit = true := by
  obtain ⟨m, r, s⟩ := em
  simp only at h
  cases r <;> cases s <;>
    simp only [ExtendedMantissa.roundedMantissa, ExtendedMantissa.accuracy,
      Accuracy.roundToNearestEven] <;> simp <;> omega

theorem targetExponent_eq (m : Nat) (e : Int) :
    Format.binary64.targetExponent (Float.Model.totalExponent m e) =
      max ((m.log2 : Int) + e - 52) (-1074) := by
  have hmin : Format.binary64.minExponent = -1074 := rfl
  have hbits : (Format.binary64.mantissaBits : Int) = 53 := rfl
  rw [Format.targetExponent, Float.Model.totalExponent, hmin, hbits]
  omega

/-- By how many bits a mantissa is too long for its exponent. -/
def excess (m : Nat) (e : Int) : Nat :=
  (Format.binary64.targetExponent (Float.Model.totalExponent m e) - e).toNat

theorem excess_eq (m : Nat) (e : Int) :
    excess m e = (max ((m.log2 : Int) - 52) (-1074 - e)).toNat := by
  rw [excess, targetExponent_eq]
  omega

theorem log2_mul_two_pow {n : Nat} (h : n ≠ 0) (k : Nat) : (n * 2 ^ k).log2 = n.log2 + k := by
  rw [Nat.log2_eq_iff (Nat.mul_ne_zero h (Nat.two_pow_pos k).ne')]
  constructor
  · rw [Nat.pow_add]
    exact Nat.mul_le_mul_right _ (Nat.log2_self_le h)
  · rw [Nat.add_right_comm, Nat.pow_add]
    exact Nat.mul_lt_mul_of_pos_right Nat.lt_log2_self (Nat.two_pow_pos k)

/-- Shifted by the excess, a mantissa fits. -/
theorem shifted_lt (m : Nat) (e : Int) : m / 2 ^ excess m e < 2 ^ 53 := by
  have hbits : m.log2 + 1 ≤ 53 + excess m e := by
    rw [excess_eq]
    omega
  rw [Nat.div_lt_iff_lt_mul (Nat.two_pow_pos _), ← Nat.pow_add]
  exact Nat.lt_log2_self.trans_le (Nat.pow_le_pow_right Nat.two_pos hbits)

/-- The mantissa after the first shift, with the bits that were shifted out. -/
def shifted (m : Nat) (e : Int) (acc : Accuracy) : ExtendedMantissa :=
  ExtendedMantissa.ofMantissaAndAccuracy m acc >>> excess m e

theorem mantissa_shifted (m : Nat) (e : Int) (acc : Accuracy) :
    (shifted m e acc).mantissa = m / 2 ^ excess m e := by
  rw [shifted, mantissa_shiftRight]
  match acc with
  | .exact | .inexact .lt | .inexact .eq | .inexact .gt => rfl

/-- Rounding shifts, rounds, and shifts what was rounded. -/
theorem roundWithAccuracy_eq (s : Sign) (m : Nat) (e : Int) (acc : Accuracy) {r : Nat} {e' : Int}
    (hr : (shifted m e acc).roundedMantissa = r) (he : e + excess m e = e') :
    roundWithAccuracy Format.binary64 s m e acc =
      if h : r / 2 ^ excess r e' = 0 then .zero s
      else .finite s (r / 2 ^ excess r e') (e' + excess r e') (Nat.pos_of_ne_zero h) := by
  subst hr he
  simp only [← mantissa_shifted _ _ .exact]
  rfl

/-- **Rounding leaves a mantissa with 53 bits; one that grows to `2^53` goes back to `2^52` with the
next exponent.** -/
theorem roundWithAccuracy_cases (s : Sign) (m : Nat) (e : Int) (acc : Accuracy) {r : Nat} {e' : Int}
    (hr : (shifted m e acc).roundedMantissa = r) (he : e + excess m e = e') :
    (r = 0 ∧ roundWithAccuracy Format.binary64 s m e acc = .zero s) ∨
    (∃ hpos, r < 2 ^ 53 ∧ roundWithAccuracy Format.binary64 s m e acc = .finite s r e' hpos) ∨
    (r = 2 ^ 53 ∧ roundWithAccuracy Format.binary64 s m e acc =
      .finite s (2 ^ 52) (e' + 1) (Nat.two_pow_pos 52)) := by
  have hle : r ≤ 2 ^ 53 := by
    have h := (roundedMantissa_bounds (shifted m e acc)).2
    have hlt := shifted_lt m e
    rw [mantissa_shifted, hr] at h
    omega
  have hmin : -1074 ≤ e' := by
    rw [← he, excess_eq]
    omega
  rw [roundWithAccuracy_eq s m e acc hr he]
  rcases Nat.eq_zero_or_pos r with hzero | hpos
  · rw [hzero]
    exact .inl ⟨rfl, dif_pos (Nat.zero_div _)⟩
  rcases Nat.lt_or_eq_of_le hle with hlt | htop
  · have hexcess : excess r e' = 0 := by
      have hlog : r.log2 < 53 := (Nat.log2_lt hpos.ne').2 hlt
      rw [excess_eq]
      omega
    simp only [hexcess, pow_zero, Nat.div_one, Nat.cast_zero, add_zero]
    exact .inr (.inl ⟨hpos, hlt, dif_neg hpos.ne'⟩)
  · have hexcess : excess (2 ^ 53) e' = 1 := by
      rw [excess_eq, Nat.log2_two_pow]
      omega
    simp only [htop, hexcess]
    exact .inr (.inr ⟨trivial, rfl⟩)

/-- What is rounded stays within a bound on its size. -/
theorem within_roundWithAccuracy {b : Int} (s : Sign) (m : Nat) (e : Int) (acc : Accuracy)
    (hb : e + excess m e < b) : Within b (roundWithAccuracy Format.binary64 s m e acc) := by
  obtain ⟨-, h⟩ | ⟨hpos, hlt, h⟩ | ⟨-, h⟩ := roundWithAccuracy_cases s m e acc rfl rfl
  · rw [h]
    trivial
  · rw [h]
    exact ⟨hlt, hb.le⟩
  · rw [h]
    exact ⟨by decide, hb⟩

/-- What is rounded is infinite if its exponent is too large, or gets too large by a carry. -/
theorem isInf_roundWithAccuracy_iff (s : Sign) (m : Nat) (e : Int) (acc : Accuracy) {r : Nat}
    {e' : Int} (hr : (shifted m e acc).roundedMantissa = r) (he : e + excess m e = e')
    (hpos : r ≠ 0) :
    (Float.Model.pack (roundWithAccuracy Format.binary64 s m e acc)).unpack.isInf = true ↔
      972 ≤ e' ∨ e' = 971 ∧ r = 2 ^ 53 := by
  obtain ⟨hzero, -⟩ | ⟨hpos, hlt, h⟩ | ⟨htop, h⟩ := roundWithAccuracy_cases s m e acc hr he
  · exact absurd hzero hpos
  · rw [h, isInf_unpack_pack_finite _ _ _ _ hlt]
    omega
  · rw [h, isInf_unpack_pack_finite _ _ _ _ (by decide)]
    omega

/-! ## Integers -/

/-- A large integer is rounded once. -/
theorem toModel_ofNat_of_le {n : Nat} (h : 2 ^ 53 ≤ n) :
    (Float.ofNat n).toModel = Float.Model.pack
      (roundWithAccuracy Format.binary64 .positive (n * 2 ^ 53) (-53) .exact) := by
  have hzero : n ≠ 0 := by omega
  have hlarge : ¬ (n < 2 ^ 53 ∧ 0 ≤ 22) := by omega
  show (Float.ofScientific n false 0).toModel = _
  rw [Float.ofScientific, dif_neg hlarge]
  show Float.Model.pack (UnpackedFloat.ofScientific Format.binary64 n 0) = _
  rw [UnpackedFloat.ofScientific, dif_neg hzero, if_neg (by decide), if_neg (by dsimp only; omega),
    if_pos (by decide)]
  show Float.Model.pack (roundWithAccuracy Format.binary64 .positive
    (n <<< 53 * 10 ^ (0 : Int).toNat) (-53 + 0) .exact) = _
  simp [Nat.shiftLeft_eq]

/-- A machine word below `2^53` is held exactly. -/
theorem within_ofNat {n : Nat} (h : n < 2 ^ 53) :
    Within 1 (UnpackedFloat.ofNat Format.binary64 n) := by
  rw [UnpackedFloat.ofNat, UnpackedFloat.ofInt, UnpackedFloat.normalize]
  split
  · next hlt => exact absurd (Int.compare_eq_lt.1 hlt) (by omega)
  · trivial
  · next hgt =>
    have hzero : n ≠ 0 := by
      have := Int.compare_eq_gt.1 hgt
      omega
    have hlog : n.log2 < 53 := (Nat.log2_lt hzero).2 h
    refine within_roundWithAccuracy _ _ _ _ ?_
    rw [Int.toNat_natCast, targetExponent_eq, Nat.shiftLeft_eq, excess_eq, log2_mul_two_pow hzero]
    omega

/-- The product is rounded once more, so there is room for a carry. -/
theorem within_mul_one {u : UnpackedFloat} (h : Within 1 u) :
    Within 3 (u.mul Format.binary64 (.finite .positive (2 ^ 52) (-52) (Nat.two_pow_pos 52))) := by
  cases u with
  | notANumber => exact h.elim
  | infinity s => exact h.elim
  | zero s => trivial
  | finite s m e hm =>
    obtain ⟨hlt, he⟩ := h
    have hlog : m.log2 < 53 := (Nat.log2_lt hm.ne').2 hlt
    refine within_roundWithAccuracy _ _ _ _ ?_
    rw [excess_eq, log2_mul_two_pow hm.ne']
    omega

/-- A small integer goes through a machine word, and is multiplied with one. -/
theorem isInf_ofNat_of_lt {n : Nat} (h : n < 2 ^ 53) : (Float.ofNat n).isInf = false := by
  have hsmall : n < 2 ^ 53 ∧ 0 ≤ 22 := ⟨h, by decide⟩
  have hword : n.toUInt64.toNat = n := UInt64.toNat_ofNat_of_lt' (by simp [UInt64.size]; omega)
  have hone : (Float.ofBits 0x3FF0000000000000).toModel.unpack =
      .finite .positive (2 ^ 52) (-52) (Nat.two_pow_pos 52) := rfl
  show (Float.ofScientific n false 0).isInf = _
  rw [Float.ofScientific, dif_pos hsmall]
  show (Float.Model.pack (UnpackedFloat.mul Format.binary64
    (Float.Model.pack (UnpackedFloat.ofNat Format.binary64 n.toUInt64.toNat)).unpack
    (Float.ofBits 0x3FF0000000000000).toModel.unpack)).unpack.isInf = false
  rw [hword, hone]
  exact (within_unpack_pack (within_mul_one (within_unpack_pack (within_ofNat h) (by decide)
    (by decide))) (by decide) (by decide)).isInf

/-- The first 53 bits of a number of 1024 bits are set, and so is the next one, just if the number
is at least halfway between the greatest float and `2^1024`. -/
theorem top_bits_iff {n half : Nat} (hhalf : 0 < half) (h : n < 2 ^ 54 * half) :
    n / half / 2 = 2 ^ 53 - 1 ∧ (n / half % 2 != 0) = true ↔ 2 ^ 54 * half - half ≤ n := by
  have hlt : n / half < 2 ^ 54 := (Nat.div_lt_iff_lt_mul hhalf).2 h
  have hle : 2 ^ 54 - 1 ≤ n / half ↔ (2 ^ 54 - 1) * half ≤ n := Nat.le_div_iff_mul_le hhalf
  rw [Nat.sub_mul, Nat.one_mul] at hle
  rw [← hle, bne_iff_ne]
  omega

theorem two_pow_1024 : (2 : Nat) ^ 1024 = 2 ^ 54 * 2 ^ 970 := by
  simp only [← Nat.pow_add, Nat.reduceAdd]

theorem two_pow_1023 : (2 : Nat) ^ 1023 = 2 ^ 970 * 2 ^ 53 := by
  simp only [← Nat.pow_add, Nat.reduceAdd]

theorem excess_of_le {n : Nat} (h : 2 ^ 53 ≤ n) : excess (n * 2 ^ 53) (-53) = n.log2 + 1 := by
  have hzero : n ≠ 0 := by omega
  have hlarge : 53 ≤ n.log2 := (Nat.le_log2 hzero).2 h
  rw [excess_eq, log2_mul_two_pow hzero]
  omega

/-- Of the numbers with 1024 bits, those from halfway on get one bit more. -/
theorem carries_iff {n : Nat} (h : 2 ^ 53 ≤ n) (hlog : n.log2 = 1023) :
    (shifted (n * 2 ^ 53) (-53) .exact).roundedMantissa = 2 ^ 53 ↔ 2 ^ 1024 - 2 ^ 970 ≤ n := by
  have hexcess : excess (n * 2 ^ 53) (-53) = 1023 + 1 := by rw [excess_of_le h, hlog]
  have hbelow : n * 2 ^ 53 / 2 ^ 1023 = n / 2 ^ 970 := by
    rw [two_pow_1023, Nat.mul_div_mul_right _ _ (Nat.two_pow_pos 53)]
  have hmantissa : (shifted (n * 2 ^ 53) (-53) .exact).mantissa = n / 2 ^ 970 / 2 := by
    rw [mantissa_shifted, hexcess, pow_succ 2 1023, ← Nat.div_div_eq_div_mul, hbelow]
  have hbit : (shifted (n * 2 ^ 53) (-53) .exact).roundBit = (n / 2 ^ 970 % 2 != 0) := by
    rw [shifted, hexcess, roundBit_shiftRight, ← hbelow]
    rfl
  have hlt : n < 2 ^ 1024 := by
    rw [← Nat.log2_lt (by omega), hlog]
    decide
  rw [two_pow_1024] at hlt ⊢
  rw [roundedMantissa_eq_top_iff (by rw [mantissa_shifted]; exact shifted_lt _ _), hmantissa, hbit]
  exact top_bits_iff (by positivity) hlt

/-- **A natural number is rounded to infinity just from halfway between the greatest float and
`2^1024`.** -/
theorem isInf_ofNat_iff (n : Nat) :
    (Float.ofNat n).isInf = true ↔ 2 ^ 1024 - 2 ^ 970 ≤ n := by
  by_cases hsmall : n < 2 ^ 53
  · have hhalf : 0 < (2 : Nat) ^ 970 := by positivity
    rw [isInf_ofNat_of_lt hsmall, two_pow_1024]
    generalize (2 : Nat) ^ 970 = half at *
    simp only [Bool.false_eq_true, false_iff]
    omega
  have hlarge : 2 ^ 53 ≤ n := Nat.le_of_not_lt hsmall
  have hzero : n ≠ 0 := by omega
  have hpos : (shifted (n * 2 ^ 53) (-53) .exact).roundedMantissa ≠ 0 := by
    have hle := (roundedMantissa_bounds (shifted (n * 2 ^ 53) (-53) .exact)).1
    have hbits : 0 < n * 2 ^ 53 / 2 ^ (n.log2 + 1) :=
      Nat.div_pos (Nat.mul_le_mul (Nat.log2_self_le hzero) (by decide)) (Nat.two_pow_pos _)
    rw [mantissa_shifted, excess_of_le hlarge] at hle
    omega
  have hinf : (Float.ofNat n).isInf = (Float.Model.pack
      (roundWithAccuracy Format.binary64 .positive (n * 2 ^ 53) (-53) .exact)).unpack.isInf :=
    congrArg (fun x => x.unpack.isInf) (toModel_ofNat_of_le hlarge)
  rw [hinf, isInf_roundWithAccuracy_iff _ _ _ _ rfl rfl hpos, excess_of_le hlarge]
  -- only with 1024 bits does it depend on the carry
  rcases Nat.lt_trichotomy n.log2 1023 with hlog | hlog | hlog
  · have hn : n < 2 ^ 1023 := by rwa [← Nat.log2_lt hzero]
    rw [two_pow_1024]
    rw [two_pow_1023] at hn
    generalize (2 : Nat) ^ 970 = half at *
    omega
  · rw [carries_iff hlarge hlog]
    omega
  · have hn : 2 ^ 1024 ≤ n := by rwa [← Nat.le_log2 hzero]
    generalize (2 : Nat) ^ 970 = half
    generalize (2 : Nat) ^ 1024 = top at *
    omega

/-- **An integer has no float just if its size is at least halfway between the greatest float and
`2^1024`.** -/
theorem ofInt?_eq_none_iff (i : Int) :
    ofInt? i = none ↔ 2 ^ 1024 - 2 ^ 970 ≤ i.natAbs := by
  have hinf : (Float.ofInt i).isInf = (Float.ofNat i.natAbs).isInf := by
    cases i with
    | ofNat n => rfl
    | negSucc n => exact isInf_neg _
  rw [ofInt?, ← isInf_ofNat_iff, ← hinf]
  simp

/-! ## Numerals -/

/-- A number that is not `nan` and has no minus sign; it may be zero or infinite. -/
def IsUnsigned : UnpackedFloat → Prop
  | .notANumber => False
  | .infinity s => s = .positive
  | .zero s => s = .positive
  | .finite s _ _ _ => s = .positive

theorem isUnsigned_roundWithAccuracy (m : Nat) (e : Int) (acc : Accuracy) :
    IsUnsigned (roundWithAccuracy Format.binary64 .positive m e acc) := by
  obtain ⟨-, h⟩ | ⟨_, -, h⟩ | ⟨-, h⟩ := roundWithAccuracy_cases .positive m e acc rfl rfl
  all_goals
    rw [h]
    exact rfl

theorem isUnsigned_ofNat (n : Nat) : IsUnsigned (UnpackedFloat.ofNat Format.binary64 n) := by
  rw [UnpackedFloat.ofNat, UnpackedFloat.ofInt, UnpackedFloat.normalize]
  split
  · next hlt => exact absurd (Int.compare_eq_lt.1 hlt) (by omega)
  · exact rfl
  · exact isUnsigned_roundWithAccuracy _ _ _

theorem unpackSign_packComponents {spec : Format} (s : Sign) (e : BitVec spec.exponentBits)
    (m : BitVec spec.mantissaBitsWithoutImplicit) :
    UnpackedFloat.unpackSign (UnpackedFloat.packComponents spec s e m) = s.toBitVec := by
  ext i hi
  obtain rfl : i = 0 := by omega
  simp [UnpackedFloat.unpackSign, UnpackedFloat.packComponents, BitVec.getLsbD_append,
    BitVec.getElem_append]

theorem isUnsigned_unpack {b : BitVec Format.binary64.numBits}
    (hsign : UnpackedFloat.unpackSign b = Sign.positive.toBitVec)
    (hnan : (UnpackedFloat.unpack Format.binary64 b).isNaN = false) :
    IsUnsigned (UnpackedFloat.unpack Format.binary64 b) := by
  simp only [UnpackedFloat.unpack, hsign] at hnan ⊢
  split
  · next hexp =>
    rw [if_pos hexp] at hnan
    split
    · rfl
    · next hmantissa =>
      rw [if_neg hmantissa] at hnan
      cases hnan
  · split
    · split <;> rfl
    · rfl

theorem isUnsigned_unpack_pack {u : UnpackedFloat} (h : IsUnsigned u) :
    IsUnsigned (Float.Model.pack u).unpack := by
  have hnan := isNaN_unpack_pack u
  cases u with
  | notANumber => exact h.elim
  | infinity s => rwa [unpack_pack_infinity]
  | zero s => cases s <;> exact h
  | finite s m e hm =>
    obtain rfl : s = .positive := h
    refine isUnsigned_unpack ?_ hnan
    show UnpackedFloat.unpackSign (UnpackedFloat.pack Format.binary64 (.finite .positive m e hm)) = _
    rw [pack_finite]
    split <;> exact unpackSign_packComponents _ _ _

theorem IsUnsigned.mul {u : UnpackedFloat} (h : IsUnsigned u) (m : Nat) (e : Int) (hm : 0 < m) :
    IsUnsigned (u.mul Format.binary64 (.finite .positive m e hm)) := by
  cases u with
  | notANumber => exact h.elim
  | infinity s => exact congrArg (· * Sign.positive) h
  | zero s => exact congrArg (· * Sign.positive) h
  | finite s m' e' hm' =>
    obtain rfl : s = .positive := h
    exact isUnsigned_roundWithAccuracy _ _ _

theorem IsUnsigned.div {u : UnpackedFloat} (h : IsUnsigned u) (m : Nat) (e : Int) (hm : 0 < m) :
    IsUnsigned (u.div Format.binary64 (.finite .positive m e hm)) := by
  cases u with
  | notANumber => exact h.elim
  | infinity s => exact congrArg (· / Sign.positive) h
  | zero s => exact congrArg (· / Sign.positive) h
  | finite s m' e' hm' =>
    obtain rfl : s = .positive := h
    exact isUnsigned_roundWithAccuracy _ _ _

theorem isUnsigned_ofScientific (n : Nat) (e : Int) :
    IsUnsigned (UnpackedFloat.ofScientific Format.binary64 n e) := by
  rw [UnpackedFloat.ofScientific]
  split
  · exact rfl
  split
  · exact rfl
  split
  · exact rfl
  split
  · exact isUnsigned_roundWithAccuracy _ _ _
  · exact isUnsigned_roundWithAccuracy _ _ _

/-- Whether a number is finite, positive and not zero. -/
def isPositive : UnpackedFloat → Bool
  | .finite .positive _ _ _ => true
  | _ => false

theorem isPositive_powersOfTen :
    Float.exactlyRepresentablePowersOfTen.all (fun x => isPositive x.toModel.unpack) = true := by
  decide +kernel

theorem IsUnsigned.scale {x : Float} (h : IsUnsigned x.toModel.unpack) {y : Float}
    (hy : isPositive y.toModel.unpack = true) :
    IsUnsigned (x * y).toModel.unpack ∧ IsUnsigned (x / y).toModel.unpack := by
  show IsUnsigned (Float.Model.pack (x.toModel.unpack.mul Format.binary64 y.toModel.unpack)).unpack ∧
    IsUnsigned (Float.Model.pack (x.toModel.unpack.div Format.binary64 y.toModel.unpack)).unpack
  match hu : y.toModel.unpack, hy with
  | .finite .positive m e hm, _ =>
    exact ⟨isUnsigned_unpack_pack (h.mul m e hm), isUnsigned_unpack_pack (h.div m e hm)⟩

/-- **A numeral has no sign.** -/
theorem isUnsigned_float_ofScientific (n : Nat) (s : Bool) (e : Nat) :
    IsUnsigned (Float.ofScientific n s e).toModel.unpack := by
  rw [Float.ofScientific]
  split
  · next hsmall =>
    have hn : IsUnsigned n.toUInt64.toFloat.toModel.unpack :=
      isUnsigned_unpack_pack (isUnsigned_ofNat _)
    obtain ⟨hmul, hdiv⟩ := hn.scale (Array.all_eq_true.1 isPositive_powersOfTen e
      (by simp [Float.exactlyRepresentablePowersOfTen]; omega))
    cases s
    · exact hmul
    · exact hdiv
  · exact isUnsigned_unpack_pack (isUnsigned_ofScientific _ _)

theorem IsUnsigned.isNaN {u : UnpackedFloat} (h : IsUnsigned u) : u.isNaN = false := by
  cases u with
  | notANumber => exact h.elim
  | infinity s => rfl
  | zero s => rfl
  | finite s m e hm => rfl

theorem IsUnsigned.compare_zero {u : UnpackedFloat} (h : IsUnsigned u) :
    ∃ o, (UnpackedFloat.zero .positive).compare u = some o ∧ o.isLE = true := by
  cases u with
  | notANumber => exact h.elim
  | infinity s =>
    obtain rfl : s = .positive := h
    exact ⟨.lt, rfl, rfl⟩
  | zero s => exact ⟨.eq, rfl, rfl⟩
  | finite s m e hm =>
    obtain rfl : s = .positive := h
    exact ⟨.lt, rfl, rfl⟩

end Binary64

namespace Numeral

theorem isUnsigned_scientific (n : Nat) (e : Int) :
    Binary64.IsUnsigned (scientific n e).toModel.unpack := by
  rw [scientific]
  split <;> exact Binary64.isUnsigned_float_ofScientific _ _ _

/-- **The value of a numeral is no `nan` and not below zero.** -/
theorem decimal_unsigned (text : List Char) :
    (decimal text).isNaN = false ∧ 0.0 ≤ decimal text := by
  have hunsigned : Binary64.IsUnsigned (decimal text).toModel.unpack := isUnsigned_scientific _ _
  exact ⟨hunsigned.isNaN, Binary64.le_iff.2 hunsigned.compare_zero⟩

end Numeral
end SpaceCurve
