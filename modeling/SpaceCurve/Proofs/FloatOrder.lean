import SpaceCurve.Decimal.Binary64
import Mathlib

/-!
# The order of floats and the distance between them

What comparisons of floats can be relied on for.  A float that is `nan` compares with nothing; of
two others, either the first is less or the second is at most the first (`le_of_not_lt`).  These are
ordered like their `rank`, so that comparisons can be chained (`lt_of_lt_of_le`, `lt_of_le_of_lt`).
The distance between two floats is `nan` when one of them is or when they are the same infinity
(`isNaN_abs_sub_iff`), and it is at most a finite float only when both are finite
(`isFinite_of_abs_sub_le`).  For the size of a single float the same holds (`isNaN_abs_eq`,
`isFinite_of_abs_le`).

All of this is read off the unpacked form of a float.  What an operation returns has been packed,
and `isNaN_unpack_pack` and `unpack_pack_infinity` say what packing leaves alone.
-/

set_option autoImplicit false

namespace SpaceCurve
namespace Binary64

open Float.Model (UnpackedFloat Format)

/-! ## Packing -/

theorem unpack_pack_infinity (s : UnpackedFloat.Sign) :
    (Float.Model.pack (.infinity s)).unpack = .infinity s := by
  cases s <;> rfl

/-- What is packed with an exponent in range is not `nan`. -/
theorem isNaN_unpack_of_exponent {b : BitVec Format.binary64.numBits}
    (h : UnpackedFloat.unpackExponent b ≠ -BitVec.ofNat _ 1) :
    (UnpackedFloat.unpack Format.binary64 b).isNaN = false := by
  simp only [UnpackedFloat.unpack, if_neg h]
  split
  · split <;> rfl
  · rfl

/-- **Packing makes no number `nan`.** -/
theorem isNaN_unpack_pack (u : UnpackedFloat) :
    (Float.Model.pack u).unpack.isNaN = u.isNaN := by
  cases u with
  | notANumber => rfl
  | infinity s => rw [unpack_pack_infinity]
  | zero s => cases s <;> rfl
  | finite s m e hm =>
    show (UnpackedFloat.unpack Format.binary64
      (UnpackedFloat.pack Format.binary64 (.finite s m e hm))).isNaN = false
    simp only [UnpackedFloat.pack]
    split
    · -- an exponent that is too large is packed as an infinity
      cases s <;> rfl
    · next hrange =>
      split
      · refine isNaN_unpack_of_exponent ?_
        rw [UnpackedFloat.unpackExponent_packComponents]
        intro h
        have hbits := congrArg BitVec.toNat h
        rw [BitVec.toNat_ofNat, Nat.mod_eq_of_lt (by omega)] at hbits
        have hmax : (-BitVec.ofNat Format.binary64.exponentBits 1).toNat = 2 ^ 11 - 1 := rfl
        omega
      · refine isNaN_unpack_of_exponent ?_
        rw [UnpackedFloat.unpackExponent_packComponents]
        decide

/-! ## Comparing -/

theorem isSome_compare {u v : UnpackedFloat} (hu : u.isNaN = false) (hv : v.isNaN = false) :
    ∃ o, u.compare v = some o := by
  cases u with
  | notANumber => cases hu
  | infinity s =>
    cases v with
    | notANumber => cases hv
    | infinity s' => exact ⟨_, rfl⟩
    | zero s' => cases s <;> exact ⟨_, rfl⟩
    | finite s' => cases s <;> exact ⟨_, rfl⟩
  | zero s =>
    cases v with
    | notANumber => cases hv
    | infinity s' => cases s' <;> exact ⟨_, rfl⟩
    | zero s' => exact ⟨_, rfl⟩
    | finite s' => cases s' <;> exact ⟨_, rfl⟩
  | finite s =>
    cases v with
    | notANumber => cases hv
    | infinity s' => cases s <;> cases s' <;> exact ⟨_, rfl⟩
    | zero s' => cases s <;> exact ⟨_, rfl⟩
    | finite s' => cases s <;> cases s' <;> exact ⟨_, rfl⟩

/-- The order on mantissas and exponents, taken the other way round. -/
theorem then_swap (e f : Int) (m n : Nat) :
    ((compare f e).then (compare n m)) = ((compare e f).then (compare m n)).swap := by
  rw [Ordering.swap_then, Int.compare_swap, Nat.compare_swap]

/-- Comparing the other way round has the opposite outcome. -/
theorem compare_swap (u v : UnpackedFloat) : v.compare u = (u.compare v).map Ordering.swap := by
  cases u with
  | notANumber => cases v <;> rfl
  | infinity s =>
    cases v with
    | notANumber => cases s <;> rfl
    | infinity s' => cases s <;> cases s' <;> rfl
    | zero s' => cases s <;> rfl
    | finite s' => cases s <;> cases s' <;> rfl
  | zero s =>
    cases v with
    | notANumber => rfl
    | infinity s' => cases s' <;> rfl
    | zero s' => rfl
    | finite s' => cases s' <;> rfl
  | finite s m e hm =>
    cases v with
    | notANumber => rfl
    | infinity s' => cases s <;> cases s' <;> rfl
    | zero s' => cases s <;> rfl
    | finite s' n f hn =>
      cases s with
      | negative =>
        cases s' with
        | negative => exact congrArg (fun o : Ordering => some o.swap) (then_swap e f m n)
        | positive => rfl
      | positive =>
        cases s' with
        | negative => rfl
        | positive => exact congrArg some (then_swap e f m n)

theorem lt_iff {x y : Float} :
    x < y ↔ x.toModel.unpack.compare y.toModel.unpack = some .lt := by
  have hbool : x < y ↔ (x.toModel.unpack.compare y.toModel.unpack == some .lt) = true :=
    decide_eq_true_iff
  rw [hbool, beq_iff_eq]

theorem le_iff {x y : Float} :
    x ≤ y ↔ ∃ o, x.toModel.unpack.compare y.toModel.unpack = some o ∧ o.isLE = true := by
  have hbool : x ≤ y ↔ (x.toModel.unpack.compare y.toModel.unpack).any (·.isLE) = true :=
    decide_eq_true_iff
  rw [hbool, Option.any_eq_true]

/-- **Of two floats that are not `nan`, one is less or the other is at most as large.** -/
theorem le_of_not_lt {x y : Float} (hx : x.isNaN = false) (hy : y.isNaN = false) (h : ¬ y < x) :
    x ≤ y := by
  obtain ⟨o, ho⟩ := isSome_compare hx hy
  rw [lt_iff, compare_swap, ho] at h
  refine le_iff.2 ⟨o, ho, ?_⟩
  cases o with
  | lt => rfl
  | eq => rfl
  | gt => exact absurd rfl h

/-! ## Chains of comparisons -/

/-- The place of a float in the order: its sign and whether it is infinite, then its exponent, then
its mantissa, both the other way round when it is negative. -/
def rank : UnpackedFloat → ℤ ×ₗ ℤ ×ₗ ℤ
  | .infinity .negative => toLex (-2, toLex (0, 0))
  | .finite .negative m e _ => toLex (-1, toLex (-e, -m))
  | .zero _ => toLex (0, toLex (0, 0))
  | .finite .positive m e _ => toLex (1, toLex (e, m))
  | .infinity .positive => toLex (2, toLex (0, 0))
  | .notANumber => toLex (0, toLex (0, 0))

/-- Exponents and mantissas are compared lexicographically. -/
theorem then_eq_lt_iff (e f : Int) (m n : Nat) :
    (compare e f).then (compare m n) = .lt ↔ toLex (e, (m : Int)) < toLex (f, (n : Int)) := by
  rw [Ordering.then_eq_lt, Prod.Lex.toLex_lt_toLex, compare_lt_iff_lt, compare_eq_iff_eq,
    compare_lt_iff_lt, Nat.cast_lt]

/-- **Floats that are not `nan` are ordered by their rank.** -/
theorem compare_eq_lt_iff {u v : UnpackedFloat} (hu : u.isNaN = false) (hv : v.isNaN = false) :
    u.compare v = some .lt ↔ rank u < rank v := by
  cases u with
  | notANumber => cases hu
  | infinity s =>
    cases v with
    | notANumber => cases hv
    | infinity s' => cases s <;> cases s' <;> decide
    | zero s' => cases s <;> simp [UnpackedFloat.compare, rank, Prod.Lex.toLex_lt_toLex]
    | finite s' =>
      cases s <;> cases s' <;> simp [UnpackedFloat.compare, rank, Prod.Lex.toLex_lt_toLex]
  | zero s =>
    cases v with
    | notANumber => cases hv
    | infinity s' => cases s' <;> simp [UnpackedFloat.compare, rank, Prod.Lex.toLex_lt_toLex]
    | zero s' => simp [UnpackedFloat.compare, rank]
    | finite s' => cases s' <;> simp [UnpackedFloat.compare, rank, Prod.Lex.toLex_lt_toLex]
  | finite s m e hm =>
    cases v with
    | notANumber => cases hv
    | infinity s' =>
      cases s <;> cases s' <;> simp [UnpackedFloat.compare, rank, Prod.Lex.toLex_lt_toLex]
    | zero s' => cases s <;> simp [UnpackedFloat.compare, rank, Prod.Lex.toLex_lt_toLex]
    | finite s' n f hn =>
      cases s with
      | positive =>
        cases s' with
        | negative => simp [UnpackedFloat.compare, rank, Prod.Lex.toLex_lt_toLex]
        | positive =>
          simp only [UnpackedFloat.compare, rank, Option.some.injEq, then_eq_lt_iff]
          simp [Prod.Lex.toLex_lt_toLex]
      | negative =>
        cases s' with
        | positive => simp [UnpackedFloat.compare, rank, Prod.Lex.toLex_lt_toLex]
        | negative =>
          simp only [UnpackedFloat.compare, rank, Option.some.injEq, ← then_swap, then_eq_lt_iff]
          simp [Prod.Lex.toLex_lt_toLex, eq_comm]

/-- What can be compared is not `nan`. -/
theorem isNaN_of_compare {u v : UnpackedFloat} {o : Ordering} (h : u.compare v = some o) :
    u.isNaN = false ∧ v.isNaN = false := by
  constructor
  · cases u with
    | notANumber => cases v <;> cases h
    | _ => rfl
  · cases v with
    | notANumber => cases u <;> cases h
    | _ => rfl

theorem rank_lt_of_lt {x y : Float} (h : x < y) :
    rank x.toModel.unpack < rank y.toModel.unpack := by
  have hlt := lt_iff.1 h
  obtain ⟨hx, hy⟩ := isNaN_of_compare hlt
  exact (compare_eq_lt_iff hx hy).1 hlt

theorem rank_le_of_le {x y : Float} (h : x ≤ y) :
    rank x.toModel.unpack ≤ rank y.toModel.unpack := by
  obtain ⟨o, ho, hle⟩ := le_iff.1 h
  obtain ⟨hx, hy⟩ := isNaN_of_compare ho
  refine le_of_not_gt fun hlt => ?_
  have hswap := (compare_eq_lt_iff hy hx).2 hlt
  rw [compare_swap, ho] at hswap
  cases o with
  | lt => cases hswap
  | eq => cases hswap
  | gt => cases hle

theorem lt_of_lt_of_le {x y z : Float} (hxy : x < y) (hyz : y ≤ z) : x < z := by
  obtain ⟨o, ho, -⟩ := le_iff.1 hyz
  have hx := (isNaN_of_compare (lt_iff.1 hxy)).1
  have hz := (isNaN_of_compare ho).2
  have hrank := (rank_lt_of_lt hxy).trans_le (rank_le_of_le hyz)
  exact lt_iff.2 ((compare_eq_lt_iff hx hz).2 hrank)

theorem lt_of_le_of_lt {x y z : Float} (hxy : x ≤ y) (hyz : y < z) : x < z := by
  obtain ⟨o, ho, -⟩ := le_iff.1 hxy
  have hx := (isNaN_of_compare ho).1
  have hz := (isNaN_of_compare (lt_iff.1 hyz)).2
  have hrank := (rank_le_of_le hxy).trans_lt (rank_lt_of_lt hyz)
  exact lt_iff.2 ((compare_eq_lt_iff hx hz).2 hrank)

/-! ## Distances -/

theorem unpack_abs (a : Float) :
    a.abs.toModel.unpack = (Float.Model.pack a.toModel.unpack.abs).unpack :=
  rfl

theorem isNaN_abs (u : UnpackedFloat) : u.abs.isNaN = u.isNaN := by
  cases u <;> rfl

/-- The size of a float is `nan` when the float is. -/
theorem isNaN_abs_eq (a : Float) : a.abs.isNaN = a.isNaN :=
  (isNaN_unpack_pack a.toModel.unpack.abs).trans (isNaN_abs a.toModel.unpack)

/-- A distance is `nan` when the difference is, before it is packed. -/
theorem isNaN_abs_sub (a b : Float) : (a - b).abs.isNaN =
    (UnpackedFloat.sub Format.binary64 a.toModel.unpack b.toModel.unpack).isNaN :=
  (isNaN_abs_eq (a - b)).trans (isNaN_unpack_pack _)

theorem isNaN_normalize (m : Int) (e : Int) (s : UnpackedFloat.Sign) :
    (UnpackedFloat.normalize Format.binary64 m e s).isNaN = false := by
  have hround : ∀ s n, (UnpackedFloat.round Format.binary64 s n e).isNaN = false := by
    intro s n
    simp only [UnpackedFloat.round, UnpackedFloat.roundWithAccuracy]
    split <;> rfl
  rw [UnpackedFloat.normalize]
  split
  · exact hround _ _
  · rfl
  · exact hround _ _

/-- A difference is `nan` when one of its sides is, or when both are the same infinity. -/
theorem isNaN_sub_iff (u v : UnpackedFloat) :
    (UnpackedFloat.sub Format.binary64 u v).isNaN = true ↔
      u.isNaN = true ∨ v.isNaN = true ∨ u.isInf = true ∧ u.beq v = true := by
  cases u with
  | notANumber => exact iff_of_true (by cases v <;> rfl) (.inl rfl)
  | infinity s =>
    cases v with
    | notANumber => exact iff_of_true rfl (.inr (.inl rfl))
    | infinity s' => cases s <;> cases s' <;> decide
    | zero s' =>
      cases s <;>
        simp [UnpackedFloat.sub, UnpackedFloat.isNaN, UnpackedFloat.beq, UnpackedFloat.compare]
    | finite s' =>
      cases s <;>
        simp [UnpackedFloat.sub, UnpackedFloat.isNaN, UnpackedFloat.beq, UnpackedFloat.compare]
  | zero s =>
    cases v with
    | notANumber => exact iff_of_true rfl (.inr (.inl rfl))
    | infinity s' => simp [UnpackedFloat.sub, UnpackedFloat.isNaN, UnpackedFloat.isInf]
    | zero s' => cases s <;> cases s' <;> decide
    | finite s' => simp [UnpackedFloat.sub, UnpackedFloat.isNaN, UnpackedFloat.isInf]
  | finite s m e hm =>
    cases v with
    | notANumber => exact iff_of_true rfl (.inr (.inl rfl))
    | infinity s' => simp [UnpackedFloat.sub, UnpackedFloat.isNaN, UnpackedFloat.isInf]
    | zero s' => simp [UnpackedFloat.sub, UnpackedFloat.isNaN, UnpackedFloat.isInf]
    | finite s' n f hn =>
      have hsub : (UnpackedFloat.sub Format.binary64 (.finite s m e hm)
          (.finite s' n f hn)).isNaN = false := isNaN_normalize _ _ _
      rw [hsub]
      simp [UnpackedFloat.isNaN, UnpackedFloat.isInf]

/-- **When the distance between two floats is `nan`.** -/
theorem isNaN_abs_sub_iff {a b : Float} : (a - b).abs.isNaN = true ↔
    a.isNaN = true ∨ b.isNaN = true ∨ a.isInf = true ∧ (a == b) = true := by
  rw [isNaN_abs_sub]
  exact isNaN_sub_iff a.toModel.unpack b.toModel.unpack

theorem isNaN_of_isFinite {a : Float} (h : a.isFinite = true) : a.isNaN = false := by
  have hcases : ∀ u : UnpackedFloat, u.isFinite = true → u.isNaN = false := by
    intro u hu
    cases u with
    | notANumber => cases hu
    | infinity s => cases hu
    | zero s => rfl
    | finite s => rfl
  exact hcases a.toModel.unpack h

theorem isInf_of_isFinite {a : Float} (h : a.isFinite = true) : a.isInf = false := by
  have hcases : ∀ u : UnpackedFloat, u.isFinite = true → u.isInf = false := by
    intro u hu
    cases u with
    | notANumber => cases hu
    | infinity s => cases hu
    | zero s => rfl
    | finite s => rfl
  exact hcases a.toModel.unpack h

/-- A difference with an infinity or with `nan` is one of them. -/
theorem sub_of_not_isFinite {u v : UnpackedFloat} (h : u.isFinite = false ∨ v.isFinite = false) :
    UnpackedFloat.sub Format.binary64 u v = .notANumber ∨
      ∃ s, UnpackedFloat.sub Format.binary64 u v = .infinity s := by
  cases u with
  | notANumber => exact .inl (by cases v <;> rfl)
  | infinity s =>
    cases v with
    | notANumber => exact .inl rfl
    | infinity s' =>
      cases s <;> cases s' <;> first | exact .inl rfl | exact .inr ⟨_, rfl⟩
    | zero s' => exact .inr ⟨s, rfl⟩
    | finite s' => exact .inr ⟨s, rfl⟩
  | zero s =>
    cases v with
    | notANumber => exact .inl rfl
    | infinity s' => exact .inr ⟨_, rfl⟩
    | zero s' => simp [UnpackedFloat.isFinite] at h
    | finite s' => simp [UnpackedFloat.isFinite] at h
  | finite s =>
    cases v with
    | notANumber => exact .inl rfl
    | infinity s' => exact .inr ⟨_, rfl⟩
    | zero s' => simp [UnpackedFloat.isFinite] at h
    | finite s' => simp [UnpackedFloat.isFinite] at h

/-- The size of what is not finite is `nan` or infinity. -/
theorem unpack_pack_abs_of_not_isFinite {u : UnpackedFloat} (h : u.isFinite = false) :
    (Float.Model.pack u.abs).unpack = .notANumber ∨
      (Float.Model.pack u.abs).unpack = .infinity .positive := by
  cases u with
  | notANumber => exact .inl rfl
  | infinity s => exact .inr (unpack_pack_infinity .positive)
  | zero s => cases h
  | finite s => cases h

/-- No infinity is at most a finite number, and `nan` is not either. -/
theorem not_le_of_isFinite {u t : UnpackedFloat} (ht : t.isFinite = true)
    (hu : u = .notANumber ∨ u = .infinity .positive) {o : Ordering}
    (ho : u.compare t = some o) : o.isLE = false := by
  rcases hu with rfl | rfl
  · cases t <;> cases ho
  · cases t with
    | notANumber => cases ht
    | infinity s => cases ht
    | zero s =>
      cases ho
      rfl
    | finite s =>
      cases ho
      rfl

/-- **What is at most a finite float in size is finite.** -/
theorem isFinite_of_abs_le {a t : Float} (ht : t.isFinite = true) (h : a.abs ≤ t) :
    a.isFinite = true := by
  cases ha : a.isFinite with
  | true => rfl
  | false =>
    obtain ⟨o, ho, hle⟩ := le_iff.1 h
    rw [unpack_abs] at ho
    rw [not_le_of_isFinite ht (unpack_pack_abs_of_not_isFinite ha) ho] at hle
    cases hle

/-- **Only finite floats are at a finite distance.** -/
theorem isFinite_of_abs_sub_le {a b t : Float} (ht : t.isFinite = true) (h : (a - b).abs ≤ t) :
    a.isFinite = true ∧ b.isFinite = true := by
  have hsub : (Float.Model.pack (UnpackedFloat.sub Format.binary64 a.toModel.unpack
      b.toModel.unpack)).unpack.isFinite = true := isFinite_of_abs_le ht h
  rw [← Bool.and_eq_true]
  cases hboth : a.isFinite && b.isFinite with
  | true => rfl
  | false =>
    rcases sub_of_not_isFinite (Bool.and_eq_false_iff.1 hboth) with hnan | ⟨s, hinfinity⟩
    · rw [hnan] at hsub
      cases hsub
    · rw [hinfinity, unpack_pack_infinity] at hsub
      cases hsub

end Binary64
end SpaceCurve
