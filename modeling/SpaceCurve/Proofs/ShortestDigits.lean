import SpaceCurve.Decimal.Shortest
import SpaceCurve.Proofs.Nearest

/-!
# The digits of a float

The shortest decimal of a float is searched for, with one digit more at a time, until one lies in
the interval of the numbers that are rounded to the float.

## What is here

* `holds_iff` — the interval, in quarters of a unit, is what rounds to the float.
* `zpow_magnitude_le` — the search begins at a power of ten that is at most ten times too large: the
  estimate from the number of bits is never too large.
* `exists_holds` — seventeen digits are enough, since the grid is then finer than the interval is
  wide.
* `digits_spec` — **the digits that are found round to the float.**
-/

set_option autoImplicit false

namespace SpaceCurve
namespace Shortest

open Binary64 (RoundsTo reach Held)

/-! ## A common unit -/

theorem pow_toNat_neg_mul_zpow {b : ℚ} (hb : b ≠ 0) (q : Int) :
    b ^ (-q).toNat * b ^ q = b ^ q.toNat := by
  rw [← zpow_natCast, ← zpow_natCast, ← zpow_add₀ hb]
  congr 1
  omega

theorem exists_scale (q p : Int) : ∃ c : ℚ, 0 < c ∧
    ((commonScale q p).1 : ℚ) = c * 2 ^ q ∧ ((commonScale q p).2 : ℚ) = c * 10 ^ p := by
  refine ⟨2 ^ (-q).toNat * 10 ^ (-p).toNat, by positivity, ?_, ?_⟩
  · rw [mul_right_comm, pow_toNat_neg_mul_zpow two_ne_zero]
    exact_mod_cast rfl
  · rw [mul_assoc, pow_toNat_neg_mul_zpow (by norm_num)]
    exact_mod_cast rfl

section

variable (a n : Nat) (q p : Int)

/-- Multiples of a power of two and of a power of ten are compared in a common unit. -/
theorem scaled_le_iff : a * (commonScale q p).1 ≤ n * (commonScale q p).2 ↔
    (a : ℚ) * 2 ^ q ≤ n * 10 ^ p := by
  obtain ⟨c, hc, hf, hg⟩ := exists_scale q p
  rw [← Nat.cast_le (α := ℚ), Nat.cast_mul, Nat.cast_mul, hf, hg, mul_left_comm,
    mul_left_comm (n : ℚ), mul_le_mul_iff_right₀ hc]

theorem le_scaled_iff : n * (commonScale q p).2 ≤ a * (commonScale q p).1 ↔
    (n : ℚ) * 10 ^ p ≤ a * 2 ^ q := by
  obtain ⟨c, hc, hf, hg⟩ := exists_scale q p
  rw [← Nat.cast_le (α := ℚ), Nat.cast_mul, Nat.cast_mul, hf, hg, mul_left_comm,
    mul_left_comm (a : ℚ), mul_le_mul_iff_right₀ hc]

theorem scaled_lt_iff : a * (commonScale q p).1 < n * (commonScale q p).2 ↔
    (a : ℚ) * 2 ^ q < n * 10 ^ p := by
  rw [← not_le, le_scaled_iff, not_le]

theorem lt_scaled_iff : n * (commonScale q p).2 < a * (commonScale q p).1 ↔
    (n : ℚ) * 10 ^ p < a * 2 ^ q := by
  rw [← not_le, scaled_le_iff, not_le]

end

/-! ## The interval -/

section

variable {m : Nat} {e : Int}

theorem zpow_sub_two (e : Int) : (2 : ℚ) ^ (e - 2) = 2 ^ e / 4 := by
  rw [zpow_sub₀ two_ne_zero]
  norm_num

theorem low_ofMantissa (hm : 0 < m) (e : Int) :
    ((Interval.ofMantissa m e).low : ℚ) * 2 ^ (e - 2) = (m - reach m e) * 2 ^ e := by
  have hlow : ((Interval.ofMantissa m e).low : ℚ) = 4 * m - 4 * reach m e := by
    have hpow : Nat.pow 2 52 = 2 ^ 52 := rfl
    simp only [Interval.ofMantissa, reach, Bool.and_eq_true, beq_iff_eq, bne_iff_ne, hpow]
    by_cases htop : m = 2 ^ 52 ∧ e ≠ -1074
    · rw [if_pos htop, if_pos htop, Nat.cast_sub (by omega)]
      push_cast
      ring
    · rw [if_neg htop, if_neg htop, Nat.cast_sub (by omega)]
      push_cast
      ring
  rw [hlow, zpow_sub_two]
  ring

theorem high_ofMantissa (m : Nat) (e : Int) :
    ((Interval.ofMantissa m e).high : ℚ) * 2 ^ (e - 2) = (m + 1 / 2) * 2 ^ e := by
  rw [zpow_sub_two]
  simp only [Interval.ofMantissa]
  push_cast
  ring

theorem value_ofMantissa (m : Nat) (e : Int) :
    ((Interval.ofMantissa m e).value : ℚ) * 2 ^ (e - 2) = m * 2 ^ e := by
  rw [zpow_sub_two]
  simp only [Interval.ofMantissa]
  push_cast
  ring

/-- **The interval holds what rounds to the float.** -/
theorem holds_iff (hm : 0 < m) (e : Int) (n : Nat) (p : Int) :
    (Interval.ofMantissa m e).holds n p = true ↔ RoundsTo (n * 10 ^ p) m e := by
  have hclosed : (Interval.ofMantissa m e).closed = true ↔ m % 2 = 0 := beq_iff_eq
  simp only [Interval.holds]
  split
  · next heven =>
    rw [Bool.and_eq_true, decide_eq_true_iff, decide_eq_true_iff, scaled_le_iff, le_scaled_iff]
    show _ * 2 ^ (e - 2) ≤ _ ∧ _ ≤ _ * 2 ^ (e - 2) ↔ _
    rw [low_ofMantissa hm, high_ofMantissa]
    have hodd : m % 2 ≠ 1 := by rw [hclosed.1 heven]; decide
    exact ⟨fun h => ⟨h.1, h.2, fun h1 => absurd h1 hodd⟩, fun h => ⟨h.ge, h.le⟩⟩
  · next hne =>
    rw [Bool.and_eq_true, decide_eq_true_iff, decide_eq_true_iff, scaled_lt_iff, lt_scaled_iff]
    show _ * 2 ^ (e - 2) < _ ∧ _ < _ * 2 ^ (e - 2) ↔ _
    rw [low_ofMantissa hm, high_ofMantissa]
    have hodd : m % 2 = 1 := by
      rw [hclosed] at hne
      omega
    exact ⟨fun h => ⟨h.1.le, h.2.le, fun _ => h⟩, fun h => h.lt hodd⟩

/-- A point of the grid is at or below the value, and the next one is above it. -/
theorem below_bounds (m : Nat) (e p : Int) :
    ((Interval.ofMantissa m e).below p : ℚ) * 10 ^ p ≤ m * 2 ^ e ∧
      (m : ℚ) * 2 ^ e < (((Interval.ofMantissa m e).below p + 1 : Nat) : ℚ) * 10 ^ p := by
  have hpos : 0 < (commonScale (e - 2) p).2 :=
    Nat.mul_pos (Nat.pow_pos two_pos) (Nat.pow_pos (by norm_num))
  rw [← value_ofMantissa, ← le_scaled_iff, ← scaled_lt_iff]
  exact ⟨Nat.div_mul_le_self _ _, Nat.lt_mul_of_div_lt (Nat.lt_succ_self _) hpos⟩

theorem holds_of_pick? {i : Interval} {p : Int} {n : Nat} (h : i.pick? p = some n) :
    i.holds n p = true := by
  simp only [Interval.pick?] at h
  split at h
  · next hlow hhigh =>
    split at h
    · exact Option.some.inj h ▸ hhigh
    · exact Option.some.inj h ▸ hlow
  · next hlow _ => exact Option.some.inj h ▸ hlow
  · next _ hhigh => exact Option.some.inj h ▸ hhigh
  · cases h

theorem isSome_pick? {i : Interval} {p : Int}
    (h : i.holds (i.below p) p = true ∨ i.holds (i.below p + 1) p = true) :
    (i.pick? p).isSome = true := by
  simp only [Interval.pick?]
  split
  · rfl
  · rfl
  · rfl
  · next hlow hhigh =>
    rw [hlow, hhigh] at h
    exact absurd h (by decide)

/-! ## The magnitude -/

/-- The estimate is never too large: from `10^3 ≤ 2^10` if the power is not negative, and from
`2^93 ≤ 10^28` if it is. -/
theorem zpow_estimate_le {bits : Int} (hmin : -1074 ≤ bits) (hmax : bits ≤ 1023) :
    (10 : ℚ) ^ (bits * 30103 / 100000 - 2) ≤ 2 ^ bits := by
  obtain ⟨s, hs⟩ : ∃ s, s = bits * 30103 / 100000 - 2 := ⟨_, rfl⟩
  rw [← hs]
  have hpow : ∀ f : Int, (0 : ℚ) < 2 ^ f := zpow_pos (by norm_num)
  by_cases hnonneg : 0 ≤ bits
  · refine le_of_pow_le_pow_left₀ (n := 10) (by decide) (hpow _).le ?_
    calc ((10 : ℚ) ^ s) ^ 10 = 10 ^ (s * 10) := by rw [zpow_mul]; rfl
      _ ≤ 10 ^ (3 * bits) := zpow_le_zpow_right₀ (by norm_num) (by omega)
      _ = (10 ^ (3 : Int)) ^ bits := zpow_mul _ _ _
      _ ≤ (2 ^ (10 : Int)) ^ bits := zpow_le_zpow_left₀ hnonneg (by norm_num) (by norm_num)
      _ = (2 ^ bits) ^ 10 := by rw [← zpow_mul, mul_comm, zpow_mul]; rfl
  · refine le_of_pow_le_pow_left₀ (n := 93) (by decide) (hpow _).le ?_
    calc ((10 : ℚ) ^ s) ^ 93 = 10 ^ (s * 93) := by rw [zpow_mul]; rfl
      _ ≤ 10 ^ (28 * bits) := zpow_le_zpow_right₀ (by norm_num) (by omega)
      _ = (10 ^ (28 : Int)) ^ bits := zpow_mul _ _ _
      _ ≤ (2 ^ (93 : Int)) ^ bits := by
          obtain ⟨a, rfl⟩ : ∃ a : Nat, bits = -(a : Int) := ⟨(-bits).toNat, by omega⟩
          rw [zpow_neg, zpow_neg, zpow_natCast, zpow_natCast]
          exact inv_anti₀ (by positivity) (pow_le_pow_left₀ (by positivity) (by norm_num) a)
      _ = (2 ^ bits) ^ 93 := by rw [← zpow_mul, mul_comm, zpow_mul]; rfl

/-- A search upward stops at the first number that passes a test, or at its end.  What is true of
the number before the start, and of all that do not pass, is true of the number before that. -/
theorem prior_of_find? {P : Int → Prop} {fits : Int → Bool} {start : Int} (hstart : P (start - 1))
    (hstep : ∀ p, fits p = false → P p) (n : Nat) :
    P ((((List.range n).map fun (k : Nat) => start + k).find? fits).getD (start + n) - 1) := by
  have hbefore : ∀ k : Nat, (∀ j < k, fits (start + j) = false) → P (start + k - 1) := by
    intro k hk
    cases k with
    | zero => rwa [Nat.cast_zero, add_zero]
    | succ j =>
      rw [Nat.cast_succ, ← add_assoc, add_sub_cancel_right]
      exact hstep _ (hk j (Nat.lt_succ_self j))
  cases hfind : ((List.range n).map fun (k : Nat) => start + k).find? fits with
  | none =>
    refine hbefore n fun j hj => Bool.eq_false_iff.2 ?_
    exact List.find?_eq_none.1 hfind _ (List.mem_map.2 ⟨j, List.mem_range.2 hj, rfl⟩)
  | some p =>
    obtain ⟨-, k, hk, rfl, hnone⟩ := List.find?_eq_some_iff_getElem.1 hfind
    simp only [List.length_map, List.length_range] at hk
    simp only [Option.getD_some, List.getElem_map, List.getElem_range] at hnone ⊢
    refine hbefore k fun j hj => ?_
    simpa using hnone j hj

/-- **The magnitude is at most ten times too large.** -/
theorem zpow_magnitude_le (hm : 0 < m) (hheld : Held m e) (hmin : -1074 ≤ e) :
    (10 : ℚ) ^ (magnitude m e - 1) ≤ m * 2 ^ e := by
  have hlog := hheld.log2_le hm
  have hle := hheld.le
  refine prior_of_find? (P := fun p => (10 : ℚ) ^ p ≤ m * 2 ^ e) ?_ (fun p hp => ?_) 5
  · refine le_trans ?_ (Binary64.zpow_log2_le hm e)
    rw [sub_sub]
    exact zpow_estimate_le (by omega) (by omega)
  · have hfits : ¬ m * (commonScale e p).1 < 1 * (commonScale e p).2 := by
      rw [one_mul]
      exact of_decide_eq_false hp
    rw [scaled_lt_iff, Nat.cast_one, one_mul, not_lt] at hfits
    exact hfits

/-! ## Digits enough -/

theorem roundsTo_of_lt {q : ℚ} (hlow : (m - reach m e) * 2 ^ e < q)
    (hhigh : q < (m + 1 / 2) * 2 ^ e) : RoundsTo q m e :=
  ⟨hlow.le, hhigh.le, fun _ => ⟨hlow, hhigh⟩⟩

/-- **On a grid of seventeen digits, one of the two points next to the value is in the interval**,
since they are closer to each other than the ends of the interval. -/
theorem exists_holds (hm : 0 < m) (hheld : Held m e) {p : Int}
    (hp : (10 : ℚ) ^ p * 10 ^ 16 ≤ m * 2 ^ e) :
    (Interval.ofMantissa m e).holds ((Interval.ofMantissa m e).below p) p = true ∨
      (Interval.ofMantissa m e).holds ((Interval.ofMantissa m e).below p + 1) p = true := by
  obtain ⟨hbelow, habove⟩ := below_bounds m e p
  obtain ⟨n, hn⟩ : ∃ n, n = (Interval.ofMantissa m e).below p := ⟨_, rfl⟩
  rw [← hn] at hbelow habove ⊢
  rw [holds_iff hm, holds_iff hm]
  have hpow : (0 : ℚ) < 2 ^ e := zpow_pos (by norm_num) e
  have hreach : 0 < reach m e ∧ (m : ℚ) < (1 / 2 + reach m e) * 10 ^ 16 := by
    have hlt : (m : ℚ) < 2 ^ 53 := by exact_mod_cast hheld.lt
    rw [reach]
    split
    · next htop =>
      rw [htop.1]
      norm_num
    · exact ⟨by norm_num, by linarith⟩
  by_contra hnone
  obtain ⟨hlow, hhigh⟩ := not_or.1 hnone
  have hlow' : (n : ℚ) * 10 ^ p ≤ (m - reach m e) * 2 ^ e := by
    refine not_lt.1 fun hlt => hlow (roundsTo_of_lt hlt ?_)
    exact hbelow.trans_lt (mul_lt_mul_of_pos_right (by linarith) hpow)
  have hhigh' : (m + 1 / 2) * 2 ^ e ≤ ((n + 1 : Nat) : ℚ) * 10 ^ p := by
    refine not_lt.1 fun hlt => hhigh (roundsTo_of_lt ?_ hlt)
    exact (mul_lt_mul_of_pos_right (by linarith) hpow).trans habove
  have hwide : (1 / 2 + reach m e) * 2 ^ e ≤ 10 ^ p := by
    push_cast at hhigh'
    linarith
  have hnarrow : (1 / 2 + reach m e) * 10 ^ 16 * 2 ^ e ≤ m * 2 ^ e := by linarith
  exact absurd (le_of_mul_le_mul_right hnarrow hpow) (not_le.2 hreach.2)

/-- **The digits of a float round to it.** -/
theorem digits_spec (hm : 0 < m) (hheld : Held m e) (hmin : -1074 ≤ e) :
    0 < (digits m e).1 ∧ RoundsTo ((digits m e).1 * 10 ^ (digits m e).2) m e := by
  have hlast : ((Interval.ofMantissa m e).pick? (magnitude m e - 17)).isSome = true := by
    refine isSome_pick? (exists_holds hm hheld ?_)
    rw [← zpow_natCast, ← zpow_add₀ (by norm_num)]
    have hexp : magnitude m e - 17 + (16 : Nat) = magnitude m e - 1 := by omega
    rw [hexp]
    exact zpow_magnitude_le hm hheld hmin
  suffices h : RoundsTo ((digits m e).1 * 10 ^ (digits m e).2) m e by
    refine ⟨Nat.pos_of_ne_zero fun hzero => ?_, h⟩
    have hpos := h.pos hm
    rw [hzero, Nat.cast_zero, zero_mul] at hpos
    exact lt_irrefl _ hpos
  obtain ⟨found, hfound⟩ : ∃ found, (List.range 17).findSome? (fun (k : Nat) =>
      ((Interval.ofMantissa m e).pick? (magnitude m e - (k + 1))).map fun n =>
        (n, magnitude m e - (k + 1))) = some found := by
    refine Option.isSome_iff_exists.1 (List.findSome?_isSome_iff.2 ⟨16, by decide, ?_⟩)
    rw [Option.isSome_map]
    exact hlast
  have hdigits : digits m e = found := by
    simp only [digits, hfound, Option.getD_some]
  obtain ⟨k, -, hk⟩ := List.exists_of_findSome?_eq_some hfound
  obtain ⟨n, hn, rfl⟩ := Option.map_eq_some_iff.1 hk
  rw [hdigits]
  exact (holds_iff hm e _ _).1 (holds_of_pick? hn)

end

end Shortest
end SpaceCurve
