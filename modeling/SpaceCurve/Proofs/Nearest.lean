import SpaceCurve.Proofs.Rounding

/-!
# The nearest float

Which numbers are rounded to a float, and that a numeral is.

## What is here

* `Represents` — the number that a mantissa and the two bits behind it stand for.  A shift keeps it,
  and the rounded mantissa is the nearest whole number (`Represents.roundedMantissa_eq`).
* `RoundsTo q m e` — `q` is nearer to `m · 2^e` than to its neighbours, or halfway and `m` is even.
* `roundWithAccuracy_of_roundsTo` — **what rounds to a float is rounded to it.**  A number that is
  just below a power of two may be given with an exponent that is too small by one; then the carry
  makes up for it.
* `scientific_of_roundsTo` — **a numeral is the nearest float**, whether it is computed by one
  product or quotient of floats, or by shifting a quotient of integers.
-/

set_option autoImplicit false

namespace SpaceCurve
namespace Binary64

open Float.Model (UnpackedFloat Format)
open Float.Model.UnpackedFloat (Sign Accuracy ExtendedMantissa roundWithAccuracy)

/-- A float is known by what it holds. -/
theorem eq_of_unpack {x y : Float} (h : x.toModel.unpack = y.toModel.unpack) : x = y :=
  Float.toBits_inj.1 (UInt64.toBitVec_inj.1
    ((UnpackedFloat.unpack_inj_of_valid x.toModel.valid y.toModel.valid).1 h))

/-! ## A mantissa and two more bits -/

/-- The number that a mantissa stands for: the bit behind it is a half, and the last bit says
whether there is anything more. -/
def Represents (em : ExtendedMantissa) (q : ℚ) : Prop :=
  match em.roundBit, em.stickyBit with
  | false, false => q = em.mantissa
  | false, true => em.mantissa < q ∧ q < em.mantissa + 1 / 2
  | true, false => q = em.mantissa + 1 / 2
  | true, true => em.mantissa + 1 / 2 < q ∧ q < em.mantissa + 1

theorem Represents.bounds {em : ExtendedMantissa} {q : ℚ} (h : Represents em q) :
    em.mantissa ≤ q ∧ q < em.mantissa + 1 := by
  obtain ⟨m, r, s⟩ := em
  cases r <;> cases s <;> simp only [Represents] at h ⊢ <;> constructor <;> linarith

theorem Represents.shiftRightOne {em : ExtendedMantissa} {q : ℚ} (h : Represents em q) :
    Represents em.shiftRightOne (q / 2) := by
  obtain ⟨m, r, s⟩ := em
  rcases Nat.even_or_odd' m with ⟨n, rfl | rfl⟩
  · have hdiv : 2 * n / 2 = n := by omega
    have hmod : (2 * n % 2 != 0) = false := by simp
    cases r <;> cases s <;>
      simp only [Represents, ExtendedMantissa.shiftRightOne, hdiv, hmod, Bool.or_true,
        Bool.or_false, Nat.cast_mul, Nat.cast_ofNat] at h ⊢ <;>
      first | constructor <;> linarith | linarith
  · have hdiv : (2 * n + 1) / 2 = n := by omega
    have hmod : ((2 * n + 1) % 2 != 0) = true := by simp
    cases r <;> cases s <;>
      simp only [Represents, ExtendedMantissa.shiftRightOne, hdiv, hmod, Bool.or_true,
        Bool.or_false, Nat.cast_mul, Nat.cast_add, Nat.cast_one, Nat.cast_ofNat] at h ⊢ <;>
      first | constructor <;> linarith | linarith

/-- **Shifting keeps what is stood for.** -/
theorem Represents.shiftRight {em : ExtendedMantissa} {q : ℚ} (h : Represents em q) (k : Nat) :
    Represents (em >>> k) (q / 2 ^ k) := by
  induction k with
  | zero => rw [pow_zero, div_one]; exact h
  | succ k ih =>
    rw [pow_succ, ← div_div]
    exact ih.shiftRightOne

/-- **The rounded mantissa is the nearest whole number**, and the even one of two. -/
theorem Represents.roundedMantissa_eq {em : ExtendedMantissa} {q : ℚ} (h : Represents em q)
    {c : Nat} (hge : (c : ℚ) - 1 / 2 ≤ q) (hle : q ≤ c + 1 / 2)
    (hlt : c % 2 = 1 → (c : ℚ) - 1 / 2 < q ∧ q < c + 1 / 2) : em.roundedMantissa = c := by
  obtain ⟨m, r, s⟩ := em
  have hbelow : ∀ {a b : Nat}, (a : ℚ) < b + 1 → a ≤ b := fun hab =>
    Nat.le_of_lt_succ (by exact_mod_cast hab)
  cases r <;> cases s <;> simp only [Represents] at h
  · show m = c
    exact le_antisymm (hbelow (by linarith)) (hbelow (by linarith))
  · show m = c
    exact le_antisymm (hbelow (by linarith)) (hbelow (by linarith))
  · -- halfway between `m` and `m + 1`
    show m + m % 2 = c
    have hlow : m ≤ c := hbelow (by linarith)
    have hhigh : c ≤ m + 1 := by
      have hcast : (c : ℚ) ≤ (m + 1 : Nat) := by push_cast; linarith
      exact_mod_cast hcast
    rcases Nat.mod_two_eq_zero_or_one c with hc | hc
    · omega
    · obtain ⟨hgt, hlt⟩ := hlt hc
      have hne : c ≠ m := by rintro rfl; linarith
      have hne' : c ≠ m + 1 := by rintro rfl; push_cast at hgt; linarith
      omega
  · show m + 1 = c
    refine le_antisymm (hbelow ?_) (hbelow ?_)
    · push_cast
      linarith
    · push_cast
      linarith

theorem represents_exact (m : Nat) :
    Represents (ExtendedMantissa.ofMantissaAndAccuracy m .exact) m := rfl

/-- The bits behind a quotient say how large the remainder is. -/
theorem represents_accuracyOfFraction (m : Nat) {n : Nat} (hn : 0 < n) :
    Represents (ExtendedMantissa.ofMantissaAndAccuracy (m / n)
      (UnpackedFloat.accuracyOfFraction (m % n) n)) ((m : ℚ) / n) := by
  have hn' : (0 : ℚ) < n := Nat.cast_pos.2 hn
  have hvalue : (m : ℚ) / n = (m / n : Nat) + (m % n : Nat) / n := by
    have hcast : (m : ℚ) = n * (m / n : Nat) + (m % n : Nat) := by
      exact_mod_cast (Nat.div_add_mod m n).symm
    rw [div_eq_iff hn'.ne', add_mul, div_mul_cancel₀ _ hn'.ne', mul_comm ((m / n : Nat) : ℚ)]
    exact hcast
  have hlt : (m % n : Nat) / (n : ℚ) < 1 := by
    rw [div_lt_one hn']
    exact_mod_cast Nat.mod_lt m hn
  rw [hvalue, UnpackedFloat.accuracyOfFraction]
  by_cases hzero : m % n = 0
  · rw [if_pos hzero, hzero]
    simp [Represents, ExtendedMantissa.ofMantissaAndAccuracy]
  · have hpos : 0 < (m % n : Nat) / (n : ℚ) :=
      div_pos (by exact_mod_cast Nat.pos_of_ne_zero hzero) hn'
    rw [if_neg hzero]
    rcases lt_trichotomy (2 * (m % n)) n with h | h | h
    · have hhalf : (m % n : Nat) / (n : ℚ) < 1 / 2 := by
        rw [div_lt_div_iff₀ hn' two_pos]
        exact_mod_cast (by omega : m % n * 2 < 1 * n)
      rw [Nat.compare_eq_lt.2 h]
      show ((m / n : Nat) : ℚ) < _ ∧ _ < ((m / n : Nat) : ℚ) + 1 / 2
      exact ⟨by linarith, by linarith⟩
    · have hhalf : (m % n : Nat) / (n : ℚ) = 1 / 2 := by
        rw [div_eq_div_iff hn'.ne' two_ne_zero]
        exact_mod_cast (by omega : m % n * 2 = 1 * n)
      rw [Nat.compare_eq_eq.2 h]
      exact congrArg _ hhalf
    · have hhalf : 1 / 2 < (m % n : Nat) / (n : ℚ) := by
        rw [div_lt_div_iff₀ two_pos hn']
        exact_mod_cast (by omega : 1 * n < m % n * 2)
      rw [Nat.compare_eq_gt.2 h]
      show ((m / n : Nat) : ℚ) + 1 / 2 < _ ∧ _ < ((m / n : Nat) : ℚ) + 1
      exact ⟨by linarith, by linarith⟩

/-! ## What rounds to a float -/

/-- How far what rounds to `m · 2^e` reaches down, in units of `2^e`: half way to the neighbour,
which is nearer at a power of two. -/
def reach (m : Nat) (e : Int) : ℚ := if m = 2 ^ 52 ∧ e ≠ -1074 then 1 / 4 else 1 / 2

/-- The numbers that are rounded to `m · 2^e`.  Those halfway to a neighbour are if `m` is even. -/
structure RoundsTo (q : ℚ) (m : Nat) (e : Int) : Prop where
  ge : (m - reach m e) * 2 ^ e ≤ q
  le : q ≤ (m + 1 / 2) * 2 ^ e
  lt : m % 2 = 1 → (m - reach m e) * 2 ^ e < q ∧ q < (m + 1 / 2) * 2 ^ e

theorem reach_le (m : Nat) (e : Int) : reach m e ≤ 1 / 2 := by
  rw [reach]
  split
  · norm_num
  · exact le_rfl

section

variable {q : ℚ} {m : Nat} {e : Int}

theorem RoundsTo.pos (h : RoundsTo q m e) (hm : 0 < m) : 0 < q := by
  have hone : (1 : ℚ) ≤ m := by exact_mod_cast hm
  have hreach := reach_le m e
  exact (mul_pos (by linarith) (zpow_pos (by norm_num) e)).trans_le h.ge

/-- Half a unit away at most, in units of the float. -/
theorem RoundsTo.div (h : RoundsTo q m e) : (m : ℚ) - 1 / 2 ≤ q / 2 ^ e ∧ q / 2 ^ e ≤ m + 1 / 2 ∧
    (m % 2 = 1 → (m : ℚ) - 1 / 2 < q / 2 ^ e ∧ q / 2 ^ e < m + 1 / 2) := by
  have hpow : (0 : ℚ) < 2 ^ e := zpow_pos (by norm_num) e
  have hreach := reach_le m e
  refine ⟨?_, (div_le_iff₀ hpow).2 h.le, fun hodd => ⟨?_, (div_lt_iff₀ hpow).2 (h.lt hodd).2⟩⟩
  · exact (by linarith : (m : ℚ) - 1 / 2 ≤ m - reach m e).trans ((le_div_iff₀ hpow).2 h.ge)
  · exact (by linarith : (m : ℚ) - 1 / 2 ≤ m - reach m e).trans_lt
      ((lt_div_iff₀ hpow).2 (h.lt hodd).1)

/-- What rounds to a float of so many bits has no more of them. -/
theorem RoundsTo.lt_of_held (hheld : Held m e) (h : RoundsTo q m e) : q < 2 ^ 53 * 2 ^ e := by
  have hm : (m : ℚ) + 1 ≤ 2 ^ 53 := by exact_mod_cast hheld.lt
  exact h.le.trans_lt (mul_lt_mul_of_pos_right (by linarith) (zpow_pos (by norm_num) e))

/-- A number given with 53 bits has the exponent of the float that it rounds to, unless it lies just
below a power of two. -/
theorem RoundsTo.exponent {e₁ : Int} (h : RoundsTo q m e) (hheld : Held m e) (hmin₁ : -1074 ≤ e₁)
    (hmin : -1074 ≤ e) (hlt : q < 2 ^ 53 * 2 ^ e₁) (hbits : e₁ ≠ -1074 → 2 ^ 52 * 2 ^ e₁ ≤ q) :
    e₁ = e ∨ e₁ + 1 = e ∧ m = 2 ^ 52 ∧ (2 ^ 53 - 1 / 2) * 2 ^ e₁ ≤ q := by
  have hpow : ∀ f : Int, (0 : ℚ) < 2 ^ f := zpow_pos (by norm_num)
  have hreach := reach_le m e
  rcases lt_trichotomy e e₁ with hgt | heq | hless
  · -- so much is not rounded to so few bits
    have hstep : (2 : ℚ) * 2 ^ e ≤ 2 ^ e₁ := by
      rw [mul_comm, ← zpow_add_one₀ (by norm_num)]
      exact zpow_le_of_le (by omega)
    have hlow := hbits (by omega)
    have hhigh := h.lt_of_held hheld
    linarith
  · exact .inl heq.symm
  · have hnormal : (2 ^ 52 : ℚ) ≤ m := by exact_mod_cast hheld.normal.resolve_right (by omega)
    have hlow : (2 ^ 52 - 1 / 2) * (2 : ℚ) ^ e ≤ q :=
      (mul_le_mul_of_nonneg_right (by linarith) (hpow e).le).trans h.ge
    have hnext : e₁ + 1 = e := by
      by_contra hne
      have hstep : (2 : ℚ) ^ (2 : Int) * 2 ^ e₁ ≤ 2 ^ e := by
        rw [← zpow_add₀ (by norm_num)]
        exact zpow_le_of_le (by omega)
      have hfour : (2 : ℚ) ^ (2 : Int) = 4 := by norm_num
      rw [hfour] at hstep
      linarith [hpow e₁]
    subst hnext
    rw [zpow_add_one₀ (by norm_num)] at hlow
    have hge := h.ge
    rw [zpow_add_one₀ (by norm_num)] at hge
    have htop : m = 2 ^ 52 := by
      have hcut : ((m : ℚ) - 1 / 2) * 2 < 2 ^ 53 := by
        refine lt_of_mul_lt_mul_right ((le_trans ?_ hge).trans_lt hlt) (hpow e₁).le
        rw [mul_assoc, mul_comm (2 : ℚ)]
        exact mul_le_mul_of_nonneg_right (by linarith) (mul_pos (hpow e₁) two_pos).le
      have hcast : (m : ℚ) < (2 ^ 52 + 1 : Nat) := by push_cast; linarith
      have hcast' : m < 2 ^ 52 + 1 := by exact_mod_cast hcast
      have hnormal' : 2 ^ 52 ≤ m := by exact_mod_cast hnormal
      omega
    refine .inr ⟨rfl, htop, ?_⟩
    rw [reach, if_pos ⟨htop, by omega⟩, htop] at hge
    push_cast at hge
    linarith

/-- **What rounds to a float is rounded to it.** -/
theorem roundWithAccuracy_of_roundsTo {m₀ : Nat} {e₀ : Int} {acc : Accuracy} {r : ℚ} (s : Sign)
    (hm : 0 < m) (hheld : Held m e) (hmin : -1074 ≤ e)
    (hrepresents : Represents (ExtendedMantissa.ofMantissaAndAccuracy m₀ acc) r)
    (hbits : 2 ^ 52 ≤ m₀ ∨ e₀ ≤ -1074) (h : RoundsTo (r * 2 ^ e₀) m e) :
    roundWithAccuracy Format.binary64 s m₀ e₀ acc = .finite s m e hm := by
  obtain ⟨e₁, he₁⟩ : ∃ e₁, e₀ + excess m₀ e₀ = e₁ := ⟨_, rfl⟩
  have hpow : (0 : ℚ) < 2 ^ e₁ := zpow_pos (by norm_num) e₁
  have hshifted := hrepresents.shiftRight (excess m₀ e₀)
  have hvalue : r / 2 ^ excess m₀ e₀ = r * 2 ^ e₀ / 2 ^ e₁ := by
    rw [← he₁, zpow_add₀ (by norm_num), zpow_natCast, mul_comm r,
      mul_div_mul_left _ _ (zpow_ne_zero e₀ (by norm_num))]
  rw [hvalue] at hshifted
  obtain ⟨hlow, hhigh⟩ := hshifted.bounds
  have hmantissa := mantissa_shifted m₀ e₀ acc
  rw [shifted] at hmantissa
  rw [hmantissa] at hlow hhigh
  have hmin₁ : -1074 ≤ e₁ := by
    rw [← he₁, excess_eq]
    omega
  have hlt : r * 2 ^ e₀ < 2 ^ 53 * 2 ^ e₁ := by
    rw [← div_lt_iff₀ hpow]
    have hcast : ((m₀ / 2 ^ excess m₀ e₀ : Nat) : ℚ) + 1 ≤ 2 ^ 53 := by
      exact_mod_cast shifted_lt m₀ e₀
    linarith
  have hge : e₁ ≠ -1074 → 2 ^ 52 * 2 ^ e₁ ≤ r * 2 ^ e₀ := by
    intro hne
    have hcast : (2 : ℚ) ^ 52 ≤ (m₀ / 2 ^ excess m₀ e₀ : Nat) := by
      rw [← he₁] at hne
      exact_mod_cast le_div_excess (hbits.imp_left fun h52 => (Nat.le_log2 (by omega)).2 h52) hne
    rw [← le_div_iff₀ hpow]
    linarith
  rcases h.exponent hheld hmin₁ hmin hlt hge with rfl | ⟨rfl, rfl, htop⟩
  · obtain ⟨hge', hle', hodd⟩ := h.div
    have hrounded := hshifted.roundedMantissa_eq hge' hle' hodd
    obtain ⟨hzero, -⟩ | ⟨_, -, hround⟩ | ⟨h53, -⟩ :=
      roundWithAccuracy_cases s m₀ e₀ acc hrounded he₁
    · exact absurd hzero hm.ne'
    · exact hround
    · exact absurd h53 hheld.lt.ne
  · -- the carry makes up for the exponent
    rw [← le_div_iff₀ hpow] at htop
    rw [← div_lt_iff₀ hpow] at hlt
    have hrounded := hshifted.roundedMantissa_eq (c := 2 ^ 53) (by push_cast; linarith)
      (by push_cast; linarith) (by norm_num)
    obtain ⟨hzero, -⟩ | ⟨_, h53, -⟩ | ⟨-, hround⟩ :=
      roundWithAccuracy_cases s m₀ e₀ acc hrounded he₁
    · exact absurd hzero (by norm_num)
    · exact absurd h53 (lt_irrefl _)
    · exact hround

/-! ## Products and quotients -/

/-- A product is the nearest float. -/
theorem mul_of_roundsTo {m₁ m₂ : Nat} {e₁ e₂ : Int} (s s' : Sign) (h₁ : 0 < m₁) (h₂ : 0 < m₂)
    (hbits : 2 ^ 52 ≤ m₁ * m₂ ∨ e₁ + e₂ ≤ -1074) (hm : 0 < m) (hheld : Held m e) (hmin : -1074 ≤ e)
    (h : RoundsTo (m₁ * 2 ^ e₁ * (m₂ * 2 ^ e₂)) m e) :
    UnpackedFloat.mul Format.binary64 (.finite s m₁ e₁ h₁) (.finite s' m₂ e₂ h₂) =
      .finite (s * s') m e hm := by
  refine roundWithAccuracy_of_roundsTo (s * s') hm hheld hmin (represents_exact _) hbits ?_
  have hproduct : (m₁ : ℚ) * 2 ^ e₁ * (m₂ * 2 ^ e₂) = (m₁ * m₂ : Nat) * 2 ^ (e₁ + e₂) := by
    rw [zpow_add₀ (by norm_num), Nat.cast_mul]
    ring
  rwa [hproduct] at h

/-- A quotient is the nearest float. -/
theorem div_of_roundsTo {m₁ m₂ : Nat} {e₁ e₂ : Int} (s s' : Sign) (h₁ : 0 < m₁) (h₂ : 0 < m₂)
    (hm : 0 < m) (hheld : Held m e) (hmin : -1074 ≤ e)
    (h : RoundsTo (m₁ * 2 ^ e₁ / (m₂ * 2 ^ e₂)) m e) :
    UnpackedFloat.div Format.binary64 (.finite s m₁ e₁ h₁) (.finite s' m₂ e₂ h₂) =
      .finite (s / s') m e hm := by
  obtain ⟨k, t, hcore, hkt, -, hbits⟩ := exists_divCore e₁ e₂ h₁ h₂
  simp only [UnpackedFloat.div, hcore]
  rw [← div_mul_zpow m₁ m₂ hkt] at h
  exact roundWithAccuracy_of_roundsTo (s / s') hm hheld hmin
    (represents_accuracyOfFraction (m₁ * 2 ^ k) h₂) hbits h

/-! ## Numerals -/

/-- Whether a float is `10^k`, held with 53 bits. -/
def isPowerOfTen (k : Nat) : UnpackedFloat → Bool
  | .finite .positive m e _ => 2 ^ 52 ≤ m && m * 2 ^ e.toNat == 10 ^ k * 2 ^ (-e).toNat
  | _ => false

theorem isPowerOfTen_powersOfTen : ∀ k : Fin 23,
    isPowerOfTen k (getElem Float.exactlyRepresentablePowersOfTen k.val k.isLt).toModel.unpack =
      true := by
  decide +kernel

/-- The powers of ten in the table are exact. -/
theorem exists_powerOfTen {k : Nat} (h : k < Float.exactlyRepresentablePowersOfTen.size) : ∃ m e hm,
    (getElem Float.exactlyRepresentablePowersOfTen k h).toModel.unpack = .finite .positive m e hm ∧
      2 ^ 52 ≤ m ∧ (m : ℚ) * 2 ^ e = 10 ^ k := by
  have hpower := isPowerOfTen_powersOfTen ⟨k, h⟩
  match hu : (getElem Float.exactlyRepresentablePowersOfTen k h).toModel.unpack with
  | .notANumber | .infinity _ | .zero _ | .finite .negative _ _ _ =>
    exact absurd (hpower.symm.trans (congrArg (isPowerOfTen k) hu)) Bool.true_eq_false.mp
  | .finite .positive m e hm =>
    have hboth : isPowerOfTen k (.finite .positive m e hm) = true := by rw [← hu]; exact hpower
    simp only [isPowerOfTen, Bool.and_eq_true, decide_eq_true_eq, beq_iff_eq] at hboth
    obtain ⟨h52, heq⟩ := hboth
    refine ⟨m, e, hm, rfl, h52, ?_⟩
    have hcast : (m : ℚ) * 2 ^ e.toNat = 10 ^ k * 2 ^ (-e).toNat := by exact_mod_cast heq
    have hexp : e = e.toNat - (-e).toNat := by omega
    rw [hexp, zpow_sub₀ (by norm_num), zpow_natCast, zpow_natCast, ← mul_div_assoc,
      div_eq_iff (by positivity)]
    exact hcast

/-- What rounds to a float lies below `2^1024`. -/
theorem RoundsTo.lt_two_pow (hheld : Held m e) (h : RoundsTo q m e) : q < 2 ^ (1024 : Int) :=
  calc q < 2 ^ 53 * 2 ^ e := h.lt_of_held hheld
    _ ≤ 2 ^ 53 * 2 ^ (971 : Int) :=
        mul_le_mul_of_nonneg_left (zpow_le_of_le hheld.le) (by norm_num)
    _ = 2 ^ (1024 : Int) := by rw [← zpow_natCast, ← zpow_add₀ (by norm_num)]; rfl

/-- What rounds to a float other than zero is half the least float at least. -/
theorem RoundsTo.two_pow_le (hm : 0 < m) (hmin : -1074 ≤ e) (h : RoundsTo q m e) :
    2 ^ (-1075 : Int) ≤ q := by
  have hone : (1 : ℚ) ≤ m := by exact_mod_cast hm
  have hreach := reach_le m e
  calc (2 : ℚ) ^ (-1075 : Int) = 1 / 2 * 2 ^ (-1074 : Int) := by
        rw [one_div, ← zpow_neg_one, ← zpow_add₀ (by norm_num)]
        rfl
    _ ≤ (m - reach m e) * 2 ^ e :=
        mul_le_mul (by linarith) (zpow_le_of_le hmin) (zpow_pos (by norm_num) _).le (by linarith)
    _ ≤ q := h.ge

/-- A positive multiple of `10^k` is `2^k` at least. -/
theorem two_pow_le_mul_ten_pow {n : Nat} (hn : 0 < n) (k : Nat) :
    (2 : ℚ) ^ (k : Int) ≤ n * 10 ^ (k : Int) :=
  calc (2 : ℚ) ^ (k : Int) ≤ 10 ^ (k : Int) := by
        rw [zpow_natCast, zpow_natCast]
        exact pow_le_pow_left₀ (by norm_num) (by norm_num) k
    _ ≤ n * 10 ^ (k : Int) :=
        le_mul_of_one_le_left (zpow_nonneg (by norm_num) _) (by exact_mod_cast hn)

/-- A multiple of `10^-k` by a number of `b` bits lies below `2^(b-k)`. -/
theorem mul_ten_pow_lt (n k : Nat) :
    (n : ℚ) * 10 ^ (-(k : Int)) < 2 ^ ((n.log2 : Int) + 1 - k) :=
  calc (n : ℚ) * 10 ^ (-(k : Int)) ≤ n * 2 ^ (-(k : Int)) := by
        refine mul_le_mul_of_nonneg_left ?_ (Nat.cast_nonneg n)
        rw [zpow_neg, zpow_neg, zpow_natCast, zpow_natCast]
        exact inv_anti₀ (by positivity) (pow_le_pow_left₀ (by norm_num) (by norm_num) k)
    _ < 2 ^ ((n.log2 : Int) + 1) * 2 ^ (-(k : Int)) := by
        refine mul_lt_mul_of_pos_right ?_ (zpow_pos (by norm_num) _)
        exact_mod_cast (Nat.lt_log2_self (n := n))
    _ = 2 ^ ((n.log2 : Int) + 1 - k) := by rw [← zpow_add₀ (by norm_num), sub_eq_add_neg]

/-- The guards against too large and too small exponents of ten do not matter. -/
theorem RoundsTo.exponent_of_ten {n : Nat} {p : Int} (hn : 0 < n) (hm : 0 < m) (hheld : Held m e)
    (hmin : -1074 ≤ e) (h : RoundsTo (n * 10 ^ p) m e) :
    p ≤ 2048 ∧ -(2048 + (n.log2 : Int)) ≤ p := by
  constructor
  · by_contra hlarge
    obtain ⟨k, rfl⟩ : ∃ k : Nat, p = k := ⟨p.toNat, by omega⟩
    have hlow : (2 : ℚ) ^ (1024 : Int) ≤ n * 10 ^ (k : Int) :=
      (zpow_le_of_le (by omega)).trans (two_pow_le_mul_ten_pow hn k)
    exact absurd (h.lt_two_pow hheld) (not_lt.2 hlow)
  · by_contra hsmall
    obtain ⟨k, rfl⟩ : ∃ k : Nat, p = -(k : Int) := ⟨(-p).toNat, by omega⟩
    have hhigh : (n : ℚ) * 10 ^ (-(k : Int)) < 2 ^ (-1075 : Int) :=
      (mul_ten_pow_lt n k).trans_le (zpow_le_of_le (by omega))
    exact absurd hhigh (not_lt.2 (h.two_pow_le hm hmin))

/-- Without the table, a numeral is a product or a quotient of two numbers. -/
theorem unpackedOfScientific_of_roundsTo {n : Nat} {p : Int} (hn : 0 < n) (hm : 0 < m)
    (hheld : Held m e) (hmin : -1074 ≤ e) (h : RoundsTo (n * 10 ^ p) m e) :
    UnpackedFloat.ofScientific Format.binary64 n p = .finite .positive m e hm := by
  obtain ⟨hmax, hmin'⟩ := h.exponent_of_ten hn hm hheld hmin
  rw [UnpackedFloat.ofScientific, dif_neg hn.ne', if_neg (by dsimp only; omega),
    if_neg (by dsimp only; omega)]
  by_cases hp : 0 ≤ p
  · obtain ⟨k, rfl⟩ : ∃ k : Nat, p = k := ⟨p.toNat, by omega⟩
    have hbits : 2 ^ 52 ≤ n <<< 53 * 10 ^ k := by
      rw [Nat.shiftLeft_eq]
      calc 2 ^ 52 ≤ 1 * 2 ^ 53 * 1 := by norm_num
        _ ≤ n * 2 ^ 53 * 10 ^ k :=
            Nat.mul_le_mul (Nat.mul_le_mul_right _ hn) (Nat.one_le_pow _ _ (by norm_num))
    rw [if_pos hp]
    show UnpackedFloat.mul Format.binary64 (.finite .positive (n <<< 53) (-53) _)
      (.finite .positive (10 ^ k) 0 _) = .finite (.positive * .positive) m e hm
    refine mul_of_roundsTo .positive .positive _ _ (.inl hbits) hm hheld hmin ?_
    have hvalue : ((n <<< 53 : Nat) : ℚ) * 2 ^ (-53 : Int) * ((10 ^ k : Nat) * 2 ^ (0 : Int)) =
        n * 10 ^ (k : Int) := by
      rw [Nat.shiftLeft_eq, mul_two_pow_mul_zpow]
      norm_num
    rwa [hvalue]
  · obtain ⟨k, rfl⟩ : ∃ k : Nat, p = -(k : Int) := ⟨(-p).toNat, by omega⟩
    rw [if_neg hp]
    refine div_of_roundsTo .positive .positive _ _ hm hheld hmin ?_
    have hvalue : (n : ℚ) * 2 ^ (0 : Int) / ((10 ^ (-(-(k : Int))).toNat : Nat) * 2 ^ (0 : Int)) =
        n * 10 ^ (-(k : Int)) := by
      rw [neg_neg, Int.toNat_natCast, zpow_zero, mul_one, mul_one, zpow_neg, zpow_natCast,
        div_eq_mul_inv]
      push_cast
      rfl
    rwa [hvalue]

/-- **A numeral is the nearest float**, by way of the table or without it. -/
theorem unpack_ofScientific {n k : Nat} (negative : Bool) (hn : 0 < n) (hm : 0 < m)
    (hheld : Held m e) (hmin : -1074 ≤ e)
    (h : RoundsTo (n * 10 ^ (if negative then -(k : Int) else k)) m e) :
    (Float.ofScientific n negative k).toModel.unpack = .finite .positive m e hm := by
  by_cases hsmall : n < 2 ^ 53 ∧ k ≤ 22
  · obtain ⟨hlow, -⟩ := shifted_bounds hn hsmall.1
    have hvalue := shifted_value hn hsmall.1
    obtain ⟨m', e', hm', hpower, h52, hten⟩ := exists_powerOfTen
      (show k < Float.exactlyRepresentablePowersOfTen.size from Nat.lt_succ_of_le hsmall.2)
    rw [Float.ofScientific, dif_pos hsmall]
    cases negative with
    | false =>
      have hbits : 2 ^ 52 ≤ n * 2 ^ (52 - n.log2) * m' := hlow.trans (Nat.le_mul_of_pos_right _ hm')
      show (Float.Model.pack (UnpackedFloat.mul Format.binary64 n.toUInt64.toFloat.toModel.unpack
        (getElem Float.exactlyRepresentablePowersOfTen k _).toModel.unpack)).unpack = _
      rw [unpack_toFloat hn hsmall.1, hpower, mul_of_roundsTo .positive .positive _ _ (.inl hbits)
        hm hheld hmin]
      · exact hheld.unpack_pack hmin .positive hm
      · rw [hvalue, hten]
        exact h
    | true =>
      show (Float.Model.pack (UnpackedFloat.div Format.binary64 n.toUInt64.toFloat.toModel.unpack
        (getElem Float.exactlyRepresentablePowersOfTen k _).toModel.unpack)).unpack = _
      rw [unpack_toFloat hn hsmall.1, hpower, div_of_roundsTo .positive .positive _ _ hm hheld hmin]
      · exact hheld.unpack_pack hmin .positive hm
      · rw [hvalue, hten, div_eq_mul_inv, ← zpow_natCast, ← zpow_neg]
        exact h
  · rw [Float.ofScientific, dif_neg hsmall]
    show (Float.Model.pack (UnpackedFloat.ofScientific Format.binary64 n
      (if negative then Int.negOfNat k else Int.ofNat k))).unpack = _
    have hexp : (if negative then Int.negOfNat k else Int.ofNat k) =
        if negative then -(k : Int) else k := by
      cases negative with
      | false => rfl
      | true => exact Int.negOfNat_eq
    rw [hexp, unpackedOfScientific_of_roundsTo hn hm hheld hmin h]
    exact hheld.unpack_pack hmin .positive hm

end

end Binary64

/-- **A numeral is the float that it rounds to.** -/
theorem Numeral.scientific_of_roundsTo {x : Float} {m : Nat} {e : Int} {hm : 0 < m}
    (hx : x.toModel.unpack = .finite .positive m e hm) {n : Nat} {p : Int} (hn : 0 < n)
    (h : Binary64.RoundsTo (n * 10 ^ p) m e) : Numeral.scientific n p = x := by
  refine Binary64.eq_of_unpack (Eq.trans ?_ hx.symm)
  have hheld := Binary64.held_unpack hx
  have hmin := Binary64.le_exponent_unpack hx
  rw [Numeral.scientific]
  by_cases hp : 0 ≤ p
  · rw [if_pos hp]
    refine Binary64.unpack_ofScientific false hn hm hheld hmin ?_
    rwa [if_neg Bool.false_ne_true, Int.toNat_of_nonneg hp]
  · rw [if_neg hp]
    refine Binary64.unpack_ofScientific true hn hm hheld hmin ?_
    rwa [if_pos rfl, Int.toNat_of_nonneg (by omega), neg_neg]

end SpaceCurve
