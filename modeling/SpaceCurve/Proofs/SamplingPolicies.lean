import SpaceCurve.Proofs.Broadcasting
import SpaceCurve.Proofs.Columns
import SpaceCurve.Proofs.Findings
import SpaceCurve.Proofs.Rounding

/-!
# Which sampling policies are usable

A sampling policy that was read has at least one segment and a period above zero.  One would like
to say that its grid is then usable: so many points as segments, at finite parameter values that
start at zero.  Nothing bounds the period, though.  Zero times an infinite period is no number, so
that the grid of such a policy has no finite value at its start.  This is the only way in which it
fails.  However large or small a finite period is, and into however many segments it is cut, no
value overflows.

## What is here

* `Sampling.valueOf_zero` — the first value is zero if the period is finite, and no number else.
* `Sampling.isFinite_valueAt` — **every value before the end of a finite period is finite.**  The
  values are multiples of one part of the period, and the part may have been rounded up.  So it is
  the size before rounding that counts (`Sampling.mul_roundedUp_lt`).
* `Curve.exists_pointsOn_pointAt` — the points of a curve on a grid are those at its values.  As for
  a single equation, this is for curves whose powers agree.
* `SamplingPolicy.sample_usable` — what this says of the policies that can be read, and
  `SamplingPolicy.exists_endless`, that there is one with an infinite period.
-/

set_option autoImplicit false

namespace SpaceCurve

open Float.Model (UnpackedFloat Format)
open Binary64

/-! ## Parameter values -/

namespace Sampling

/-- The number of parts between so many values. -/
def partsOf (n : Nat) (endpoint : Bool) : Nat := if endpoint then n - 1 else n

/-- The `i`-th of `n` parameter values of a single period. -/
def valueOf (n : Nat) (endpoint : Bool) (period : Float) (i : Nat) : Float :=
  if endsPeriod n endpoint && i + 1 == n then period
  else valueAt (partsOf n endpoint) (stepOf (partsOf n endpoint) period == 0.0) i period

theorem entries_valuesOf_single (n : Nat) (endpoint : Bool) (period : Float) :
    (valuesOf n endpoint (.single period)).entries =
      (List.range n).map (valueOf n endpoint period) := by
  rw [List.map_eq_flatMap]
  refine List.flatMap_congr fun i _ => ?_
  rw [valueOf]
  simp only [Grid.single, partsOf, List.any_cons, List.any_nil, Bool.or_false, List.map_cons,
    List.map_nil]
  split <;> rfl

/-! ### The first value -/

/-- The first value is zero times the period or a part of it. -/
theorem exists_valueAt_zero {parts : Nat} (hparts : parts < 2 ^ 53) (scaled : Bool)
    (period : Float) : ∃ x y s, valueAt parts scaled 0 period = x * y + 0.0 ∧
      x.toModel.unpack = .zero s ∧ y.isFinite = period.isFinite := by
  have hzero : (Float.ofNat 0).toModel.unpack = .zero .positive := rfl
  rw [valueAt]
  split
  · exact ⟨_, _, _, rfl, hzero, rfl⟩
  · next hne =>
    have hpos : 0 < parts := by
      rw [beq_iff_eq] at hne
      omega
    split
    · refine ⟨_, _, .positive, rfl, ?_, rfl⟩
      show (Float.Model.pack ((Float.ofNat 0).toModel.unpack.div Format.binary64
        (Float.ofNat parts).toModel.unpack)).unpack = _
      rw [hzero, unpack_ofNat hpos hparts]
      exact unpack_pack_zero _
    · exact ⟨_, _, _, rfl, hzero, isFinite_div_ofNat period hpos hparts⟩

/-- **The first of the values is zero just if the period is finite**, and else it is no number. -/
theorem valueOf_zero {n : Nat} (hn : n < 2 ^ 53) (endpoint : Bool) (period : Float) :
    (period.isFinite = true → valueOf n endpoint period 0 = 0.0) ∧
      (period.isFinite = false → (valueOf n endpoint period 0).isFinite = false) := by
  have hfirst : (endsPeriod n endpoint && 0 + 1 == n) = false := by
    by_cases h : n = 1
    · simp [endsPeriod, h]
    · simp [Ne.symm h]
  have hparts : partsOf n endpoint < 2 ^ 53 := by
    rw [partsOf]
    split <;> omega
  obtain ⟨x, y, s, hxy, hx, hy⟩ := exists_valueAt_zero hparts
    (stepOf (partsOf n endpoint) period == 0.0) period
  rw [valueOf, hfirst, if_neg Bool.false_ne_true, hxy]
  exact ⟨fun h => zero_mul_add_zero hx (hy.trans h),
    fun h => isFinite_zero_mul_add_zero hx (hy.trans h)⟩

/-! ### The values before the end -/

theorem widened_le {i n : Nat} (hi : i < n) (hn : n ≤ 2 ^ 52) :
    (i : ℚ) * (1 + 2 ^ (-52 : Int)) ≤ n := by
  have hi' : (i : ℚ) + 1 ≤ n := by exact_mod_cast hi
  have hsmall : (i : ℚ) ≤ 4503599627370496 := by
    have : i ≤ 4503599627370496 := by omega
    exact_mod_cast this
  norm_num
  linarith only [hi', hsmall]

/-- Fewer than all parts, each rounded up, are not more than the whole. -/
theorem mul_roundedUp_lt {i n : Nat} (hi : i < n) (hn : n ≤ 2 ^ 52) {q : ℚ} (hq : 0 ≤ q)
    (hlt : q < limit) : (i : ℚ) * roundedUp (q / n) < limit := by
  have hn' : (0 : ℚ) < n := by exact_mod_cast (Nat.zero_le i).trans_lt hi
  rw [roundedUp, mul_max_of_nonneg _ _ (Nat.cast_nonneg i), max_lt_iff]
  constructor
  · calc (i : ℚ) * (q / n * (1 + 2 ^ (-52 : Int))) = i * (1 + 2 ^ (-52 : Int)) * (q / n) := by ring
      _ ≤ n * (q / n) := mul_le_mul_of_nonneg_right (widened_le hi hn) (div_nonneg hq hn'.le)
      _ = q := mul_div_cancel₀ q hn'.ne'
      _ < limit := hlt
  · have hi' : (i : ℚ) ≤ 2 ^ (52 : Int) := by exact_mod_cast hi.le.trans hn
    calc (i : ℚ) * 2 ^ (-1022 : Int) ≤ 2 ^ (52 : Int) * 2 ^ (-1022 : Int) :=
          mul_le_mul_of_nonneg_right hi' (zpow_nonneg (by norm_num) _)
      _ = 2 ^ (-970 : Int) := by rw [← zpow_add₀ (by norm_num)]; norm_num
      _ ≤ 2 ^ (970 : Int) := zpow_le_of_le (by norm_num)
      _ < limit := by
          have hpos : (0 : ℚ) < 2 ^ (970 : Int) := zpow_pos (by norm_num) _
          rw [limit]
          generalize (2 : ℚ) ^ (970 : Int) = x at hpos ⊢
          norm_num
          linarith

theorem roundedUp_div_le_one {i n : Nat} (hi : i < n) (hn : n ≤ 2 ^ 52) :
    roundedUp (i / n) ≤ 1 := by
  have hn' : (0 : ℚ) < n := by exact_mod_cast (Nat.zero_le i).trans_lt hi
  refine max_le ?_ ?_
  · rw [div_mul_eq_mul_div, div_le_one hn']
    exact widened_le hi hn
  · calc (2 : ℚ) ^ (-1022 : Int) ≤ 2 ^ (0 : Int) := zpow_le_of_le (by norm_num)
      _ = 1 := zpow_zero 2

/-- **Every value before the end of a finite period is finite.** -/
theorem isFinite_valueAt {period : Float} (hperiod : period.isFinite = true) {parts i : Nat}
    (scaled : Bool) (hi : i < parts) (hparts : parts ≤ 2 ^ 52) :
    (valueAt parts scaled i period).isFinite = true := by
  have hpos : 0 < parts := by omega
  have hsize := size_lt_limit hperiod
  have hindex := isFinite_ofNat (n := i) (by omega)
  rw [valueAt, if_neg (by simpa using hpos.ne')]
  split
  · obtain ⟨hfraction, hle⟩ := div_ofNat hindex hpos (by omega)
    rw [size_ofNat (by omega)] at hle
    refine isFinite_add_zero (isFinite_mul hfraction hperiod ?_)
    calc _ ≤ 1 * size period.toModel.unpack :=
          mul_le_mul_of_nonneg_right (hle.trans (roundedUp_div_le_one hi hparts)) (size_nonneg _)
      _ < limit := by rwa [one_mul]
  · obtain ⟨hstep, hle⟩ := div_ofNat hperiod hpos (by omega)
    refine isFinite_add_zero (isFinite_mul hindex hstep ?_)
    rw [size_ofNat (by omega)]
    calc (i : ℚ) * size (stepOf parts period).toModel.unpack
        ≤ i * roundedUp (size period.toModel.unpack / parts) :=
          mul_le_mul_of_nonneg_left hle (Nat.cast_nonneg i)
      _ < limit := mul_roundedUp_lt hi hparts (size_nonneg _) hsize

theorem isFinite_valueOf {n : Nat} (hn : n ≤ 2 ^ 52) (endpoint : Bool) {period : Float}
    (hperiod : period.isFinite = true) {i : Nat} (hi : i < n) :
    (valueOf n endpoint period i).isFinite = true := by
  rcases Nat.eq_zero_or_pos i with rfl | hpos
  · rw [(valueOf_zero (by omega) endpoint period).1 hperiod]
    rfl
  · rw [valueOf]
    split
    · exact hperiod
    · next hlast =>
      refine isFinite_valueAt hperiod _ ?_ ?_
      · cases endpoint with
        | false => exact hi
        | true =>
          have hmany : 1 < n := by omega
          have hne : i + 1 ≠ n := by simpa [endsPeriod, hmany] using hlast
          show i < n - 1
          omega
      · rw [partsOf]
        split <;> omega

/-- **The parameter values are finite just if the period is, and just then they start at zero.** -/
theorem entries_valuesOf_iff {n : Nat} (hpos : 0 < n) (hn : n ≤ 2 ^ 52) (endpoint : Bool)
    (period : Float) :
    ((∀ t ∈ (valuesOf n endpoint (.single period)).entries, t.isFinite = true) ↔
      period.isFinite = true) ∧
    ((valuesOf n endpoint (.single period)).entries.head? = some 0.0 ↔
      period.isFinite = true) := by
  obtain ⟨hzero, hnan⟩ := valueOf_zero (by omega : n < 2 ^ 53) endpoint period
  have hhead : (valuesOf n endpoint (.single period)).entries.head? =
      some (valueOf n endpoint period 0) := by
    obtain ⟨k, rfl⟩ := Nat.exists_eq_succ_of_ne_zero hpos.ne'
    rw [entries_valuesOf_single, List.range_succ_eq_map]
    rfl
  constructor
  · constructor
    · intro hall
      by_contra hperiod
      have hfirst := hall _ (List.mem_of_mem_head? hhead)
      rw [hnan (Bool.eq_false_iff.2 hperiod)] at hfirst
      cases hfirst
    · intro hperiod
      rw [entries_valuesOf_single, List.forall_mem_map]
      exact fun i hi => isFinite_valueOf hn endpoint hperiod (List.mem_range.1 hi)
  · rw [hhead, Option.some.injEq]
    constructor
    · intro hfirst
      by_contra hperiod
      have hnot := hnan (Bool.eq_false_iff.2 hperiod)
      rw [hfirst] at hnot
      cases hnot
    · exact hzero

end Sampling

/-! ## The points -/

/-- Where its powers agree, the column of an equation has its values at the parameters. -/
theorem Equation.forall₂_values {source : Value} {e : Equation} (h : parse source = .ok e)
    {ts : Grid Float} (hagree : e.PowersAgree ts) :
    List.Forall₂ (fun t y => e.evaluate (.real t) = .ok y) ts.entries (e.values ts) := by
  obtain ⟨p, hp, hsound⟩ := (proper_of_parse h).exists_sound
  have hprogram : e.program = .ok p := by rw [program, hp]; rfl
  choose f hf using hsound.total ts.shape.isEmpty
  have hvalues : e.values ts = ts.entries.map f := by
    have hgrid : e.evaluateGrid ts = .ok (ts.map f) := by
      rw [evaluateGrid, hprogram]
      exact Grid.convert_eq (fun t => by rw [hf]) ts
    rw [values, hgrid]
    rfl
  rw [hvalues, List.forall₂_map_right_iff, List.forall₂_same]
  intro t ht
  refine evaluate_real hprogram ?_
  rw [← hf t]
  cases hshape : ts.shape with
  | nil => rfl
  | cons n rest => exact (hsound.eval?_eq (hagree (by simp [hshape]) p hprogram t ht)).symm

theorem forall₂_zip_right {α β γ : Type} {R : α → β → Prop} {S : α → γ → Prop} {xs : List α}
    {ys : List β} {zs : List γ} (h : List.Forall₂ R xs ys) (h' : List.Forall₂ S xs zs) :
    List.Forall₂ (fun x q => R x q.1 ∧ S x q.2) xs (ys.zip zs) := by
  induction h generalizing zs with
  | nil =>
    cases h'
    exact .nil
  | cons hxy _ ih =>
    cases h' with
    | cons hxz hrest => exact .cons ⟨hxy, hxz⟩ (ih hrest)

theorem exists_head?_of_forall₂ {α β : Type} {R : α → β → Prop} {xs : List α} {ys : List β}
    (h : List.Forall₂ R xs ys) {x : α} (hx : xs.head? = some x) :
    ∃ y, ys.head? = some y ∧ R x y := by
  cases h with
  | nil => cases hx
  | cons hxy _ =>
    cases hx
    exact ⟨_, rfl, hxy⟩

theorem Curve.pointAt_eq {c : Curve} {t : Value} {x y z : Float} (hx : c.x.evaluate t = .ok x)
    (hy : c.y.evaluate t = .ok y) (hz : c.z.evaluate t = .ok z) :
    c.pointAt t = .ok ⟨x, y, z⟩ := by
  rw [pointAt, hx, hy, hz]
  rfl

/-- **Where the powers of a curve agree, its points on a grid are those at the parameters.** -/
theorem Curve.exists_pointsOn_pointAt {c : Curve} (hc : c.Parsed) {ts : Grid Float} {n : Nat}
    (hfull : ts.Full) (hts : ts.shape = [n]) :
    ∃ points, c.pointsOn ts = .ok points ∧ points.shape = [n, 3] ∧ points.rows.length = n ∧
      ((∀ axis, (c.get axis).PowersAgree ts) →
        List.Forall₂ (fun t row => ∃ point, c.pointAt (.real t) = .ok point ∧ row = point.toList)
          ts.entries points.rows) := by
  obtain ⟨points, hpoints, -, hshape, hlength, hrows⟩ := exists_pointsOn_columns hc hfull hts
  refine ⟨points, hpoints, hshape, ?_, fun hagree => ?_⟩
  · rw [hrows]
    simp [pointsOf, hlength]
  · have hcolumn : ∀ axis, List.Forall₂ (fun t y => (c.get axis).evaluate (.real t) = .ok y)
        ts.entries ((c.get axis).values ts) := by
      intro axis
      obtain ⟨source, hparse⟩ := hc axis
      exact Equation.forall₂_values hparse (hagree axis)
    rw [hrows, List.forall₂_map_right_iff]
    refine (forall₂_zip_right (hcolumn .x) (forall₂_zip_right (hcolumn .y) (hcolumn .z))).imp ?_
    rintro t ⟨x, y, z⟩ ⟨hx, hy, hz⟩
    exact ⟨⟨x, y, z⟩, pointAt_eq hx hy hz, rfl⟩

/-! ## A straight line -/

/-- The parameter alone. -/
def parameterAlone : Equation := ⟨"t", .parameter "t"⟩

theorem parse_parameterAlone : Equation.parse (.text "t") = .ok parameterAlone := by
  have hreading : Reading "t".toList parameterAlone.root [⟨.symbol .parameter, 0⟩]
      [⟨.symbol .parameter, 0⟩] :=
    { tokens_eq := by decide +kernel
      lexemes_eq := rfl
      derives := .ofTerm (.ofUnary (.ofPower (.ofPrimary (.parameter 0))))
      bounded := by simp [Bounded, Lexicon.maxDepth] }
  exact parse_of_reading hreading (by decide)

/-- The line with the parameter on all axes. -/
def diagonal : Curve := ⟨parameterAlone, parameterAlone, parameterAlone⟩

theorem parse_diagonal : Curve.parse ⟨.text "t", .text "t", .text "t"⟩ = .ok diagonal := by
  simp only [Curve.parse, Curve.parseAxis, Triple.get, parse_parameterAlone]
  rfl

/-- There are no powers on it. -/
theorem powersAgree_diagonal (axis : Axis) (ts : Grid Float) :
    (diagonal.get axis).PowersAgree ts := by
  have hget : diagonal.get axis = parameterAlone := by cases axis <;> rfl
  rw [hget]
  intro _ p hp t _ x y hraises
  cases hp
  cases hraises

/-! ## Policies that were read -/

namespace SamplingPolicy

variable {p : SamplingPolicy}

/-- **A sampling policy that was read gives a usable grid just if its period is finite.**  Any
settings that are accepted have a number of segments of at least one and a period.  Where there is
room for so many values, there are so many parameter values, and every curve has so many points.
The values are finite just if the period is, and just then they start at zero.  Where the powers of
the curve agree, the points are those at the parameter values, so the first one is then that at
zero. -/
theorem sample_usable [Machine] {settings : Fields} (hp : ofSettings settings = .ok p) :
    ∃ (n : Nat) (period : Float), 1 ≤ n ∧ p.segments = .int n ∧ p.period = .real period ∧
      (Machine.checkRoom n = .ok () → ∃ ts : Grid Float,
        Sampling.parameters p.segments p.period p.endpoint = .ok ts ∧ ts.entries.length = n ∧
        ((∀ t ∈ ts.entries, t.isFinite = true) ↔ period.isFinite = true) ∧
        (ts.entries.head? = some 0.0 ↔ period.isFinite = true) ∧
        ∀ (sources : Triple Value) (c : Curve), Curve.parse sources = .ok c →
          ∃ points, c.sample p = .ok points ∧ points.shape = [n, 3] ∧ points.rows.length = n ∧
            ((∀ axis, (c.get axis).PowersAgree ts) →
              List.Forall₂ (fun t row => ∃ point,
                c.pointAt (.real t) = .ok point ∧ row = point.toList) ts.entries points.rows ∧
              (period.isFinite = true → ∃ point, c.pointAt (.real 0.0) = .ok point ∧
                points.rows.head? = some point.toList))) := by
  obtain ⟨fig⟩ := nonempty_figures hp
  have hpos := fig.count_pos
  have hcount : ((fig.count.toNat : Nat) : Int) = fig.count := Int.toNat_of_nonneg hpos.le
  have hsegments : p.segments = .int (fig.count.toNat : Nat) := by rw [fig.segments_eq, hcount]
  refine ⟨fig.count.toNat, fig.period, by omega, hsegments, fig.period_eq, fun hroom => ?_⟩
  have hparameters : Sampling.parameters p.segments p.period p.endpoint =
      .ok (Sampling.valuesOf fig.count.toNat p.endpoint.truthy (.single fig.period)) := by
    rw [hsegments, fig.period_eq, Sampling.parameters_eq, hroom]
    rfl
  have hsmall := Machine.le_of_checkRoom _ hroom
  obtain ⟨hfinite, hzero⟩ := Sampling.entries_valuesOf_iff (n := fig.count.toNat) (by omega)
    (by omega) p.endpoint.truthy fig.period
  refine ⟨_, hparameters, ?_, hfinite, hzero, fun sources c hc => ?_⟩
  · rw [Sampling.entries_valuesOf_single, List.length_map, List.length_range]
  · obtain ⟨points, hpoints, hshape, hrows, hagree⟩ := Curve.exists_pointsOn_pointAt
      (fun axis => ⟨_, Validation.parse_get hc axis⟩)
      (Sampling.full_valuesOf fig.count.toNat p.endpoint.truthy (Grid.full_single fig.period)) rfl
    refine ⟨points, ?_, hshape, hrows, fun h => ⟨hagree h, fun hperiod => ?_⟩⟩
    · rw [Curve.sample_eq (by omega) hsegments fig.period_eq, hroom]
      exact congrArg (Except.mapError Fault.evaluation) hpoints
    · obtain ⟨row, hrow, point, hpoint, rfl⟩ :=
        exists_head?_of_forall₂ (hagree h) (hzero.2 hperiod)
      exact ⟨point, hpoint, hrow⟩

/-- Both ends of a period of one. -/
def bothEnds : Fields := [("segments", .text "2"), ("period", .int 1), ("endpoint", .bool true)]

theorem sample_usable_bothEnds :
    letI := Machine.ample
    ∃ p, ofSettings bothEnds = .ok p ∧ Machine.checkRoom 2 = .ok () ∧
      ∃ ts points, Sampling.parameters p.segments p.period p.endpoint = .ok ts ∧
        diagonal.sample p = .ok points ∧ points.rows.length = 2 ∧
        (∀ t ∈ ts.entries, t.isFinite = true) ∧ ts.entries.head? = some 0.0 ∧
        List.Forall₂ (fun t row => ∃ point, diagonal.pointAt (.real t) = .ok point ∧
          row = point.toList) ts.entries points.rows ∧
        ∃ point, diagonal.pointAt (.real 0.0) = .ok point ∧
          points.rows.head? = some point.toList := by
  let _ := Machine.ample
  have hp : ofSettings bothEnds = .ok ⟨.int 2, .real (Float.ofInt 1), .bool true⟩ := rfl
  have hroom : Machine.checkRoom 2 = .ok () := rfl
  have hone : (Float.ofInt 1).isFinite = true := by decide +kernel
  obtain ⟨n, period, -, hn, hperiod, husable⟩ := sample_usable hp
  obtain rfl : 2 = n := Int.ofNat.inj (Value.int.inj hn)
  obtain rfl := Value.real.inj hperiod
  obtain ⟨ts, hts, -, hfinite, hzero, hpoints⟩ := husable hroom
  obtain ⟨points, hsample, -, hrows, hagree⟩ := hpoints _ diagonal parse_diagonal
  obtain ⟨hall, hfirst⟩ := hagree fun axis => powersAgree_diagonal axis ts
  exact ⟨_, hp, hroom, ts, points, hts, hsample, hrows, hfinite.2 hone, hzero.2 hone, hall,
    hfirst hone⟩

/-- A single segment of an infinite period. -/
def endless : Fields := [("segments", .int 1), ("period", .text "inf")]

/-- So not every policy that was read gives a usable grid. -/
theorem exists_endless :
    letI := Machine.ample
    ∃ p, ofSettings endless = .ok p ∧ p.segments = .int 1 ∧ Machine.checkRoom 1 = .ok () ∧
      ∃ ts points point, Sampling.parameters p.segments p.period p.endpoint = .ok ts ∧
        diagonal.sample p = .ok points ∧ diagonal.pointAt (.real 0.0) = .ok point ∧
        (¬ ∀ t ∈ ts.entries, t.isFinite = true) ∧ points.rows.head? ≠ some point.toList := by
  refine ⟨_, rfl, rfl, rfl, _, _, _, rfl, rfl, rfl, ?_, ?_⟩
  · decide +kernel
  · decide +kernel

end SamplingPolicy
end SpaceCurve
