import SpaceCurve.Equation.Program
import SpaceCurve.Proofs.Rounding

/-!
# Rounding to whole numbers

To round a number, its distance to the floor is compared with a half.  But this distance is a
difference of floats, and has been rounded itself.  A distance just below a half must not become a
half by that, and none that is at least a half may get smaller than a half.

The second is true of any difference, since a half is a float.  The first is not, since a difference
may have too many bits.  What saves the comparison is that below a half the distance to a floor is
not rounded at all.  It has at most 53 bits then, unless the exponent of the float is below `-53`.
Such a float either has the floor zero, and nothing is subtracted from it, or it is just below zero,
and far above its floor.

## What is here

* `rational?` — the value of a finite float as a rational number, and `value`, the same of what is
  unpacked from it.
* `IsWhole x z` — the float `x` is the whole number `z`.  So are the floor (`isWhole_floor`) and the
  ceiling (`isWhole_ceil`) of a finite float.
* `half_le_iff` — a float is at least a half if its value is.
* `half_le_normalize_iff` — **rounding does not take a difference across the half**, and
  `half_le_sub_floor_iff` — this applies to a float and its floor.
* `round_exact` — the function that rounds.
-/

set_option autoImplicit false

namespace SpaceCurve
namespace Binary64

open Float.Model (UnpackedFloat Format)
open Float.Model.UnpackedFloat (Sign roundWithAccuracy)

/-! ## Values -/

/-- The number that the parts stand for. -/
def Parts.value (p : Parts) : ℚ :=
  (if p.negative then -(p.mantissa : ℚ) else p.mantissa) * 2 ^ p.exponent

/-- The value of a float, if it is finite. -/
def rational? (x : Float) : Option ℚ := (parts? x).map Parts.value

/-- The number that is held: zero where there is none. -/
def value : UnpackedFloat → ℚ
  | .finite s m e _ => (s.apply m : Int) * 2 ^ e
  | _ => 0

theorem value_finite (s : Sign) {m : Nat} (e : Int) (hm : 0 < m) :
    value (.finite s m e hm) = (s.apply m : Int) * 2 ^ e := rfl

theorem rational?_eq {x : Float} (hx : x.isFinite = true) :
    rational? x = some (value x.toModel.unpack) := by
  obtain ⟨s, hu⟩ | ⟨s, m, e, hm, hu⟩ := exists_of_isFinite hx
  · cases s <;> simp [rational?, parts?, hu, Parts.value, value]
  · cases s <;> simp [rational?, parts?, hu, Parts.value, value, Sign.apply]

theorem apply_neg (s : Sign) (n : Int) : (-s).apply n = -s.apply n := by
  cases s with
  | positive => rfl
  | negative => exact (neg_neg n).symm

theorem value_neg (u : UnpackedFloat) : value u.neg = -value u := by
  cases u with
  | finite s m e hm =>
    show (((-s).apply m : Int) : ℚ) * 2 ^ e = -((s.apply m : Int) * 2 ^ e)
    rw [apply_neg, Int.cast_neg, neg_mul]
  | _ => exact neg_zero.symm

/-- The size of a number is that of its value. -/
theorem abs_value (u : UnpackedFloat) : |value u| = size u := by
  cases u with
  | finite s m e hm =>
    have happly : |s.apply m| = (m : Int) := by
      cases s with
      | positive => exact abs_of_nonneg (Int.natCast_nonneg m)
      | negative => exact (abs_neg _).trans (abs_of_nonneg (Int.natCast_nonneg m))
    rw [value_finite, size_finite, abs_mul, ← Int.cast_abs, happly, Int.cast_natCast,
      abs_of_pos (zpow_pos (by norm_num) e)]
  | _ => exact abs_zero

/-- Negating changes the sign alone. -/
theorem unpack_neg (x : Float) : (-x).toModel.unpack = x.toModel.unpack.neg := by
  show (Float.Model.pack x.toModel.unpack.neg).unpack = _
  cases hu : x.toModel.unpack with
  | notANumber => rfl
  | infinity s => exact unpack_pack_infinity (-s)
  | zero s => exact unpack_pack_zero (-s)
  | finite s m e hm => exact (held_unpack hu).unpack_pack (le_exponent_unpack hu) (-s) hm

theorem isFinite_neg (x : Float) : (-x).isFinite = x.isFinite := by
  show (-x).toModel.unpack.isFinite = x.toModel.unpack.isFinite
  rw [unpack_neg]
  cases x.toModel.unpack <;> rfl

/-! ## Whole numbers -/

/-- The float is the whole number. -/
structure IsWhole (x : Float) (z : Int) : Prop where
  isFinite : x.isFinite = true
  value_eq : value x.toModel.unpack = z

theorem IsWhole.rational?_eq {x : Float} {z : Int} (h : IsWhole x z) : rational? x = some (z : ℚ) := by
  rw [Binary64.rational?_eq h.isFinite, h.value_eq]

theorem isWhole_ofNat {n : Nat} (h : n < 2 ^ 53) : IsWhole (Float.ofNat n) n where
  isFinite := isFinite_ofNat h
  value_eq := by
    have hsize := size_ofNat h
    rcases Nat.eq_zero_or_pos n with rfl | hn
    · rfl
    · rw [unpack_ofNat hn h] at hsize ⊢
      exact hsize

theorem IsWhole.neg {x : Float} {z : Int} (h : IsWhole x z) : IsWhole (-x) (-z) where
  isFinite := (isFinite_neg x).trans h.isFinite
  value_eq := by rw [unpack_neg, value_neg, h.value_eq, Int.cast_neg]

/-- With an exponent that is not negative, a number is whole. -/
theorem value_of_nonneg (s : Sign) (m : Nat) {e : Int} (he : 0 ≤ e) :
    ((s.apply m : Int) : ℚ) * 2 ^ e = (s.apply m * 2 ^ e.toNat : Int) := by
  rw [Int.cast_mul, Int.cast_pow, Int.cast_ofNat, ← zpow_natCast, Int.toNat_of_nonneg he]

/-- With a negative exponent, it is a fraction. -/
theorem value_of_neg (s : Sign) (m : Nat) {e : Int} (he : ¬ 0 ≤ e) :
    ((s.apply m : Int) : ℚ) * 2 ^ e = (s.apply m : Int) / (2 ^ (-e).toNat : Nat) := by
  rw [Nat.cast_pow, Nat.cast_ofNat, ← zpow_natCast, Int.toNat_of_nonneg (by omega), zpow_neg,
    div_inv_eq_mul]

/-- To round a negative quotient down is to round its size up. -/
theorem neg_ediv (m : Nat) {d : Nat} (hd : 0 < d) : -(m : Int) / d = -(ceilDiv m d : Int) := by
  have hlow : ceilDiv m d * d ≤ m + d - 1 := Nat.div_mul_le_self _ _
  have hhigh : m + d - 1 < d * (ceilDiv m d + 1) := Nat.lt_mul_div_succ _ hd
  rw [Int.ediv_eq_iff_of_pos (by omega), neg_mul]
  rw [Nat.mul_comm, Nat.add_mul, Nat.one_mul] at hhigh
  generalize hq : ceilDiv m d * d = q at hlow hhigh
  have hq' : (ceilDiv m d : Int) * d = q := by exact_mod_cast hq
  omega

theorem ceilDiv_le {m d : Nat} (hm : 0 < m) (hd : 0 < d) : ceilDiv m d ≤ m := by
  obtain ⟨m, rfl⟩ := Nat.exists_eq_add_of_le' hm
  obtain ⟨d, rfl⟩ := Nat.exists_eq_add_of_le' hd
  refine Nat.div_le_of_le_mul ?_
  simp only [Nat.add_mul, Nat.mul_add]
  omega

theorem isWhole_floor {x : Float} (hx : x.isFinite = true) :
    IsWhole (floor x) ⌊value x.toModel.unpack⌋ := by
  obtain ⟨s, hu⟩ | ⟨s, m, e, hm, hu⟩ := exists_of_isFinite hx
  · simp only [floor, hu]
    exact ⟨hx, by simp [hu, value]⟩
  · have hlt := (held_unpack hu).lt
    have hd : 0 < 2 ^ (-e).toNat := Nat.two_pow_pos _
    by_cases he : 0 ≤ e
    · simp only [floor, hu, if_pos he, value_finite, value_of_nonneg s m he, Int.floor_intCast]
      exact ⟨hx, by rw [hu, value_finite, value_of_nonneg s m he]⟩
    · simp only [floor, hu, if_neg he, value_finite, value_of_neg s m he,
        Rat.floor_intCast_div_natCast]
      cases s with
      | positive => exact isWhole_ofNat ((Nat.div_le_self _ _).trans_lt hlt)
      | negative =>
        have h := (isWhole_ofNat ((ceilDiv_le hm hd).trans_lt hlt)).neg
        rwa [← neg_ediv m hd] at h

theorem isWhole_ceil {x : Float} (hx : x.isFinite = true) :
    IsWhole (ceil x) ⌈value x.toModel.unpack⌉ := by
  obtain ⟨s, hu⟩ | ⟨s, m, e, hm, hu⟩ := exists_of_isFinite hx
  · simp only [ceil, hu]
    exact ⟨hx, by simp [hu, value]⟩
  · have hlt := (held_unpack hu).lt
    have hd : 0 < 2 ^ (-e).toNat := Nat.two_pow_pos _
    by_cases he : 0 ≤ e
    · simp only [ceil, hu, if_pos he, value_finite, value_of_nonneg s m he, Int.ceil_intCast]
      exact ⟨hx, by rw [hu, value_finite, value_of_nonneg s m he]⟩
    · simp only [ceil, hu, if_neg he, value_finite, value_of_neg s m he,
        Rat.ceil_intCast_div_natCast]
      cases s with
      | positive =>
        have h := isWhole_ofNat ((ceilDiv_le hm hd).trans_lt hlt)
        rwa [← neg_neg (ceilDiv m _ : Int), ← neg_ediv m hd] at h
      | negative =>
        have h := (isWhole_ofNat ((Nat.div_le_self m (2 ^ (-e).toNat)).trans_lt hlt)).neg
        rwa [Int.natCast_div, ← neg_neg (m : Int)] at h

/-! ## A half -/

theorem unpack_half : (0.5 : Float).toModel.unpack =
    .finite .positive (2 ^ 52) (-53) (Nat.two_pow_pos 52) := rfl

/-- From which exponent on a number is at least a half. -/
theorem Held.half_le_iff {m : Nat} {e : Int} (h : Held m e) :
    1 / 2 ≤ (m : ℚ) * 2 ^ e ↔ -53 ≤ e := by
  constructor
  · intro hle
    by_contra he
    have hlt : (m : ℚ) * 2 ^ e < 1 / 2 := by
      calc (m : ℚ) * 2 ^ e < 2 ^ 53 * 2 ^ e :=
            mul_lt_mul_of_pos_right (by exact_mod_cast h.lt) (zpow_pos (by norm_num) e)
        _ ≤ 2 ^ 53 * 2 ^ (-54 : Int) :=
            mul_le_mul_of_nonneg_left (zpow_le_of_le (by omega)) (by norm_num)
        _ = 1 / 2 := by norm_num
    exact absurd hle (not_le.2 hlt)
  · intro he
    have h52 : 2 ^ 52 ≤ m := h.normal.resolve_right (by omega)
    calc (1 / 2 : ℚ) = 2 ^ 52 * 2 ^ (-53 : Int) := by norm_num
      _ ≤ m * 2 ^ e := mul_le_mul (by exact_mod_cast h52) (zpow_le_of_le he)
          (zpow_nonneg (by norm_num) _) (Nat.cast_nonneg m)

theorem isLE_compare_half {m : Nat} {e : Int} (h : Held m e) :
    ((compare (-53) e).then (compare (2 ^ 52) m)).isLE = true ↔ -53 ≤ e := by
  rcases lt_trichotomy (-53) e with hlt | rfl | hgt
  · rw [Int.compare_eq_lt.2 hlt]
    exact iff_of_true rfl hlt.le
  · have h52 : 2 ^ 52 ≤ m := h.normal.resolve_right (by decide)
    refine iff_of_true ?_ le_rfl
    rw [Int.compare_eq_eq.2 rfl]
    exact Nat.isLE_compare.2 h52
  · rw [Int.compare_eq_gt.2 hgt]
    exact iff_of_false nofun (not_le.2 hgt)

/-- **A float is at least a half if its value is.** -/
theorem half_le_iff {x : Float} (hx : x.isFinite = true) :
    0.5 ≤ x ↔ 1 / 2 ≤ value x.toModel.unpack := by
  have hzero : ¬ (1 / 2 : ℚ) ≤ 0 := by norm_num
  rw [le_iff, unpack_half]
  obtain ⟨s, hu⟩ | ⟨s, m, e, hm, hu⟩ := exists_of_isFinite hx
  · rw [hu]
    exact iff_of_false (fun ⟨o, ho, hle⟩ => by cases ho; cases hle) hzero
  · have hheld := held_unpack hu
    rw [hu]
    cases s with
    | positive =>
      show (∃ o, some ((compare (-53) e).then (compare (2 ^ 52) m)) = some o ∧ o.isLE = true) ↔
        1 / 2 ≤ (m : ℚ) * 2 ^ e
      rw [hheld.half_le_iff, ← isLE_compare_half hheld]
      simp only [Option.some.injEq, exists_eq_left']
    | negative =>
      refine iff_of_false (fun ⟨o, ho, hle⟩ => by cases ho; cases hle) fun hle => hzero (hle.trans ?_)
      show ((-(m : Int) : Int) : ℚ) * 2 ^ e ≤ 0
      rw [Int.cast_neg, Int.cast_natCast, neg_mul]
      exact neg_nonpos.2 (mul_nonneg (Nat.cast_nonneg m) (zpow_nonneg (by norm_num) e))

/-! ## Differences -/

/-- A mantissa that is shifted to a smaller exponent stands for the same number. -/
theorem value_shiftLeft (s : Sign) (m : Nat) {e j : Int} (hj : j ≤ e) :
    ((s.apply (m <<< (e - j).toNat : Nat) : Int) : ℚ) * 2 ^ j = (s.apply m : Int) * 2 ^ e := by
  have happly : s.apply (m <<< (e - j).toNat : Nat) = s.apply m * 2 ^ (e - j).toNat := by
    rw [Nat.shiftLeft_eq, Nat.cast_mul, Nat.cast_pow, Nat.cast_ofNat]
    cases s with
    | positive => rfl
    | negative => exact (neg_mul _ _).symm
  rw [happly, Int.cast_mul, Int.cast_pow, Int.cast_ofNat, ← zpow_natCast,
    Int.toNat_of_nonneg (by omega), mul_assoc, ← zpow_add₀ (by norm_num), sub_add_cancel]

/-- **What is rounded is the difference of the values.** -/
theorem exists_sub (s s' : Sign) {m n : Nat} (e f : Int) (hm : 0 < m) (hn : 0 < n) :
    ∃ d : Int, UnpackedFloat.sub Format.binary64 (.finite s m e hm) (.finite s' n f hn) =
        UnpackedFloat.normalize Format.binary64 d (min e f) .positive ∧
      (d : ℚ) * 2 ^ min e f = value (.finite s m e hm) - value (.finite s' n f hn) := by
  refine ⟨_, rfl, ?_⟩
  rw [Int.cast_sub, sub_mul]
  exact congrArg₂ _ (value_shiftLeft s m (min_le_left e f)) (value_shiftLeft s' n (min_le_right e f))

theorem lt_zpow_log2 (m : Nat) (e : Int) : (m : ℚ) * 2 ^ e < 2 ^ ((m.log2 : Int) + 1 + e) := by
  have hlt : (m : ℚ) < 2 ^ (m.log2 + 1) := by exact_mod_cast Nat.lt_log2_self
  rw [zpow_add₀ (by norm_num)]
  exact mul_lt_mul_of_pos_right (by exact_mod_cast hlt) (zpow_pos (by norm_num) e)

section

variable {m : Nat} {e : Int}

/-- A number of at most 53 bits is exact. -/
theorem value_round (hm : 0 < m) (h : m < 2 ^ 53) (hmin : -1022 ≤ m.log2 + e)
    (hmax : m.log2 + e ≤ 1023) :
    (Float.Model.pack (UnpackedFloat.round Format.binary64 .positive m e)).unpack.isFinite = true ∧
      value (Float.Model.pack (UnpackedFloat.round Format.binary64 .positive m e)).unpack =
        m * 2 ^ e := by
  obtain ⟨hlow, hhigh⟩ := shifted_bounds hm h
  have hlog : m.log2 < 53 := (Nat.log2_lt hm.ne').2 h
  rw [round_of_lt .positive hm h hmin,
    unpack_pack_normal .positive (by positivity) hlow hhigh (by omega) (by omega)]
  refine ⟨rfl, ?_⟩
  show ((m * 2 ^ (52 - m.log2) : Nat) : ℚ) * _ = _
  rw [mul_two_pow_mul_zpow, add_sub_cancel]

/-- A number that is at least a half stays so, since it is rounded to 53 bits with an exponent that
is not smaller than that of a half. -/
theorem half_le_round (hm : 0 < m) (hmin : -1 ≤ m.log2 + e) (hmax : m.log2 + e ≤ 1022) :
    (Float.Model.pack (UnpackedFloat.round Format.binary64 .positive m e)).unpack.isFinite = true ∧
      1 / 2 ≤
        value (Float.Model.pack (UnpackedFloat.round Format.binary64 .positive m e)).unpack := by
  obtain ⟨k, hk⟩ : ∃ k, k = 52 - m.log2 := ⟨_, rfl⟩
  have hlog : (m * 2 ^ k).log2 = m.log2 + k := log2_mul_two_pow hm.ne' k
  have hexcess : excess (m * 2 ^ k) (e - k) = m.log2 + k - 52 := by
    rw [excess_eq, hlog]
    omega
  have hexp : e - k + excess (m * 2 ^ k) (e - k) = m.log2 + e - 52 := by
    rw [hexcess]
    omega
  have hbits : 2 ^ 52 ≤ (shifted (m * 2 ^ k) (e - k) .exact).roundedMantissa := by
    refine le_trans ?_ (roundedMantissa_bounds _).1
    rw [mantissa_shifted, hexcess, Nat.le_div_iff_mul_le (by positivity), ← pow_add,
      Nat.add_sub_cancel' (by omega), ← hlog]
    exact Nat.log2_self_le (by positivity)
  rw [round_shift .positive (by omega), ← hk]
  obtain ⟨hzero, -⟩ | ⟨hpos, h53, h⟩ | ⟨-, h⟩ :=
    roundWithAccuracy_cases .positive (m * 2 ^ k) (e - k) .exact rfl hexp
  · omega
  · have hheld : Held _ (m.log2 + e - 52) := ⟨h53, by omega, .inl hbits⟩
    rw [h, hheld.unpack_pack (by omega)]
    exact ⟨rfl, hheld.half_le_iff.2 (by omega)⟩
  · have hheld : Held (2 ^ 52) (m.log2 + e - 52 + 1) := ⟨by decide, by omega, .inl le_rfl⟩
    rw [h, hheld.unpack_pack (by omega)]
    exact ⟨rfl, hheld.half_le_iff.2 (by omega)⟩

end

/-- **The rounding of a difference does not cross the half** if its exponent is not too small, or if
it is not below the half. -/
theorem half_le_normalize_iff {d j : Int} (hnonneg : 0 ≤ (d : ℚ) * 2 ^ j)
    (hlt : (d : ℚ) * 2 ^ j < 1) (hj : -54 ≤ j ∨ 1 / 2 ≤ (d : ℚ) * 2 ^ j) :
    (Float.Model.pack (UnpackedFloat.normalize Format.binary64 d j .positive)).unpack.isFinite =
        true ∧
      (1 / 2 ≤ value
          (Float.Model.pack (UnpackedFloat.normalize Format.binary64 d j .positive)).unpack ↔
        1 / 2 ≤ (d : ℚ) * 2 ^ j) := by
  have hd : 0 ≤ d := by
    have hcast := nonneg_of_mul_nonneg_left hnonneg (zpow_pos (by norm_num) j)
    exact_mod_cast hcast
  obtain ⟨n, rfl⟩ := Int.eq_ofNat_of_zero_le hd
  rw [Int.cast_natCast] at hlt hj ⊢
  rcases Nat.eq_zero_or_pos n with rfl | hn
  · have hzero : UnpackedFloat.normalize Format.binary64 (0 : Nat) j .positive = .zero .positive := rfl
    rw [hzero, unpack_pack_zero, Nat.cast_zero, zero_mul]
    exact ⟨rfl, Iff.rfl⟩
  have hround : UnpackedFloat.normalize Format.binary64 n j .positive =
      UnpackedFloat.round Format.binary64 .positive n j := by
    rw [UnpackedFloat.normalize, Int.compare_eq_gt.2 (by omega)]
    rfl
  have hbelow : (n.log2 : Int) + j < 0 := by
    rw [← zpow_lt_zpow_iff_right₀ (one_lt_two (α := ℚ)), zpow_zero]
    exact (zpow_log2_le hn j).trans_lt hlt
  rw [hround]
  by_cases hhalf : 1 / 2 ≤ (n : ℚ) * 2 ^ j
  · have habove : -1 < (n.log2 : Int) + 1 + j := by
      rw [← zpow_lt_zpow_iff_right₀ (one_lt_two (α := ℚ))]
      calc (2 : ℚ) ^ (-1 : Int) = 1 / 2 := by norm_num
        _ ≤ n * 2 ^ j := hhalf
        _ < 2 ^ ((n.log2 : Int) + 1 + j) := lt_zpow_log2 n j
    obtain ⟨hfinite, hle⟩ := half_le_round hn (show -1 ≤ (n.log2 : Int) + j by omega) (by omega)
    exact ⟨hfinite, iff_of_true hle hhalf⟩
  · -- below the half there are at most 53 bits
    have hmin : -54 ≤ j := hj.resolve_right hhalf
    have h53 : n < 2 ^ 53 := by
      have hbits : (n : ℚ) * 2 ^ (-54 : Int) < 2 ^ 53 * 2 ^ (-54 : Int) :=
        calc (n : ℚ) * 2 ^ (-54 : Int) ≤ n * 2 ^ j :=
              mul_le_mul_of_nonneg_left (zpow_le_of_le hmin) (Nat.cast_nonneg n)
          _ < 1 / 2 := not_le.1 hhalf
          _ = 2 ^ 53 * 2 ^ (-54 : Int) := by norm_num
      exact_mod_cast lt_of_mul_lt_mul_right hbits (zpow_nonneg (by norm_num) _)
    obtain ⟨hfinite, hvalue⟩ := value_round (e := j) hn h53 (by omega) (by omega)
    exact ⟨hfinite, by rw [hvalue]⟩

/-! ## The distance to the floor -/

/-- A small number with another floor than zero is just below zero. -/
theorem half_le_fract {a : ℚ} (ha : |a| < 1 / 2) (h : ⌊a⌋ ≠ 0) : 1 / 2 ≤ Int.fract a := by
  obtain ⟨hlow, hhigh⟩ := abs_lt.1 ha
  have hneg : a < 0 := by
    by_contra hnonneg
    exact h (Int.floor_eq_zero_iff.2 ⟨not_lt.1 hnonneg, by linarith⟩)
  have hfloor : ⌊a⌋ = -1 := Int.floor_eq_iff.2 ⟨by push_cast; linarith, by push_cast; linarith⟩
  rw [Int.fract, hfloor]
  push_cast
  linarith

/-- A whole number that is not held as zero is not small. -/
theorem IsWhole.le_exponent {x : Float} {z : Int} (h : IsWhole x z) {s : Sign} {m : Nat} {e : Int}
    {hm : 0 < m} (hu : x.toModel.unpack = .finite s m e hm) : z ≠ 0 ∧ -53 ≤ e := by
  have hsize : (m : ℚ) * 2 ^ e = |(z : ℚ)| := by
    rw [← h.value_eq, abs_value, hu, size_finite]
  have hz : z ≠ 0 := by
    rintro rfl
    have hpos : (0 : ℚ) < m * 2 ^ e := mul_pos (Nat.cast_pos.2 hm) (zpow_pos (by norm_num) e)
    rw [hsize, Int.cast_zero, abs_zero] at hpos
    exact lt_irrefl _ hpos
  have hone : (1 : ℚ) ≤ |(z : ℚ)| := by exact_mod_cast Int.one_le_abs hz
  refine ⟨hz, (held_unpack hu).half_le_iff.1 ?_⟩
  rw [hsize]
  exact le_trans (by norm_num) hone

/-- **The distance to the floor is at least a half after it is rounded if it is so before.** -/
theorem half_le_sub_floor_iff {x : Float} (hx : x.isFinite = true) :
    0.5 ≤ x - floor x ↔ 1 / 2 ≤ Int.fract (value x.toModel.unpack) := by
  obtain ⟨hfloor, hvalue⟩ := isWhole_floor hx
  have hfract : Int.fract (value x.toModel.unpack) =
      value x.toModel.unpack - value (floor x).toModel.unpack := by rw [hvalue, Int.fract]
  have hsub : (x - floor x).toModel.unpack = (Float.Model.pack (UnpackedFloat.sub Format.binary64
      x.toModel.unpack (floor x).toModel.unpack)).unpack := rfl
  suffices h : (x - floor x).toModel.unpack.isFinite = true ∧
      (1 / 2 ≤ value (x - floor x).toModel.unpack ↔ 1 / 2 ≤ Int.fract (value x.toModel.unpack)) from
    (half_le_iff h.1).trans h.2
  rw [hsub]
  obtain ⟨s, hu⟩ | ⟨s, m, e, hm, hu⟩ := exists_of_isFinite hx
  · have hsame : floor x = x := by simp only [floor, hu]
    rw [hfract, hsame, hu, sub_self]
    cases s <;> exact ⟨rfl, Iff.rfl⟩
  · obtain ⟨s', hv⟩ | ⟨s', n, f, hn, hv⟩ := exists_of_isFinite hfloor
    · -- with the floor zero, nothing is subtracted
      have hpacked := (held_unpack hu).unpack_pack (le_exponent_unpack hu) s hm
      rw [hfract, hu, hv]
      show (Float.Model.pack (.finite s m e hm)).unpack.isFinite = true ∧
        (1 / 2 ≤ value (Float.Model.pack (.finite s m e hm)).unpack ↔ _)
      rw [hpacked]
      exact ⟨rfl, by rw [show value (.zero s') = 0 from rfl, sub_zero]⟩
    · obtain ⟨d, hd, hdiff⟩ := exists_sub s s' e f hm hn
      rw [← hu, ← hv, ← hfract] at hdiff
      have hj : -54 ≤ min e f ∨ 1 / 2 ≤ Int.fract (value x.toModel.unpack) := by
        obtain ⟨hz, hf⟩ := (isWhole_floor hx).le_exponent hv
        by_cases he : -53 ≤ e
        · exact .inl (by omega)
        · refine .inr (half_le_fract ?_ hz)
          rw [abs_value, hu, size_finite]
          exact not_le.1 (mt (held_unpack hu).half_le_iff.1 he)
      rw [hu, hv, hd, ← hu, ← hdiff]
      refine half_le_normalize_iff ?_ ?_ (by rwa [hdiff])
      · rw [hdiff]
        exact Int.fract_nonneg _
      · rw [hdiff]
        exact Int.fract_lt_one _

/-! ## Rounding -/

theorem isWhole_halfUp {x : Float} (hx : x.isFinite = true) :
    IsWhole (halfUp x) ⌊value x.toModel.unpack + 1 / 2⌋ := by
  have hge : x - floor x ≥ 0.5 ↔ ¬ 2 * Int.fract (value x.toModel.unpack) < 1 := by
    rw [not_lt, ← div_le_iff₀' two_pos]
    exact half_le_sub_floor_iff hx
  rw [← round_eq, round, halfUp]
  by_cases h : 2 * Int.fract (value x.toModel.unpack) < 1
  · rw [if_pos h, if_neg (mt hge.1 (not_not.2 h))]
    exact isWhole_floor hx
  · rw [if_neg h, if_pos (hge.2 h)]
    exact isWhole_ceil hx

theorem halfUp_of_not_isFinite {x : Float} (hx : x.isFinite = false) : halfUp x = x := by
  replace hx : x.toModel.unpack.isFinite = false := hx
  have hboth : floor x = x ∧ ceil x = x := by
    cases hu : x.toModel.unpack with
    | notANumber => simp only [floor, ceil, hu, and_self]
    | infinity s => simp only [floor, ceil, hu, and_self]
    | zero s => rw [hu] at hx; cases hx
    | finite s m e hm => rw [hu] at hx; cases hx
  rw [halfUp, hboth.1, hboth.2, ite_self]

end Binary64

/-- **Rounding is exact.**  A finite float is rounded to the nearest whole number, and halfway between
two of them up; infinities and `nan` stay. -/
theorem round_exact (fixed : Bool) (x : Float) : ∃ y, Func.round.result? fixed [x] = some y ∧
    (x.isFinite = true → ∃ a : ℚ, Binary64.rational? x = some a ∧
      Binary64.rational? y = some (⌊a + 1 / 2⌋ : ℚ)) ∧
    (x.isFinite = false → y = x) :=
  ⟨Binary64.halfUp x, rfl,
    fun hx => ⟨_, Binary64.rational?_eq hx, (Binary64.isWhole_halfUp hx).rational?_eq⟩,
    Binary64.halfUp_of_not_isFinite⟩

/-- The greatest float below a half is rounded to zero.  With a half added it would be one. -/
theorem round_exact_below_half :
    (0.49999999999999994 : Float) + 0.5 = 1.0 ∧
      Binary64.rational? 0.49999999999999994 = some (1 / 2 - 1 / 2 ^ 54) ∧
      ∃ y, Func.round.result? true [0.49999999999999994] = some y ∧ Binary64.rational? y = some 0 := by
  have hparts : Binary64.parts? 0.49999999999999994 = some ⟨false, 2 ^ 53 - 1, -54⟩ := rfl
  have hexact : Binary64.rational? 0.49999999999999994 = some (1 / 2 - 1 / 2 ^ 54) := by
    rw [Binary64.rational?, hparts]
    simp only [Option.map_some, Binary64.Parts.value]
    norm_num
  obtain ⟨y, hy, hfinite, -⟩ := round_exact true 0.49999999999999994
  obtain ⟨a, ha, hround⟩ := hfinite rfl
  obtain rfl := Option.some.inj (hexact.symm.trans ha)
  have hfloor : ⌊(1 / 2 - 1 / 2 ^ 54 + 1 / 2 : ℚ)⌋ = 0 := by norm_num [Int.floor_eq_iff]
  rw [hfloor, Int.cast_zero] at hround
  exact ⟨rfl, hexact, y, hy, hround⟩

end SpaceCurve
