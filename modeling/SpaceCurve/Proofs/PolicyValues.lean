import SpaceCurve.Policy.Sampling
import SpaceCurve.Policy.Validation
import SpaceCurve.Proofs.FloatOrder
import SpaceCurve.Proofs.Outcome

/-!
# What a policy read from settings holds

Settings may be of any kind, but what `ValidationPolicy.ofSettings` returns is made of numbers
where numbers are needed, and those that must be positive are.  `Figures p` are these numbers;
`nonempty_figures` says that they are there.  A policy for sampling is read in the same way, and has
`Figures` of its own.

To be positive is asked of a number as it compares with the integer zero; `unpack_of_pos` says what
this means for a float, which may well be infinite.
-/

set_option autoImplicit false

namespace SpaceCurve
namespace ValidationPolicy

/-- The numbers that a policy holds. -/
structure Figures (p : ValidationPolicy) where
  points : List Float
  period : Float
  tolerance : Float
  degeneracy : Float
  magnitude : Float
  samples : Int
  samplePoints_eq : p.samplePoints = .tuple (points.map .real)
  period_eq : p.period = .real period
  tolerance_eq : p.periodicityTolerance = .real tolerance
  degeneracy_eq : p.degeneracyTolerance = .real degeneracy
  magnitude_eq : p.maxMagnitude = .real magnitude
  samples_eq : p.geometrySamples = .int samples
  points_ne_nil : points ≠ []
  period_pos : Value.Number.lt (.whole 0) (.real period) = true
  tolerance_pos : Value.Number.lt (.whole 0) (.real tolerance) = true
  degeneracy_pos : Value.Number.lt (.whole 0) (.real degeneracy) = true
  magnitude_pos : Value.Number.lt (.whole 0) (.real magnitude) = true
  samples_pos : 0 < samples

/-- The number of points is a natural number. -/
theorem Figures.geometrySamples_eq {p : ValidationPolicy} (fig : p.Figures) :
    p.geometrySamples = .int fig.samples.toNat := by
  have hpos := fig.samples_pos
  rw [fig.samples_eq, Int.toNat_of_nonneg (by omega)]

/-- What is above zero is a number. -/
theorem isNaN_of_pos {x : Float} (h : Value.Number.lt (.whole 0) (.real x) = true) :
    x.isNaN = false := by
  show x.toModel.unpack.isNaN = false
  cases hu : x.toModel.unpack with
  | notANumber => simp [Value.Number.lt, Binary64.compareInt?, hu] at h
  | _ => rfl

/-- What is above zero is positive, whether it is finite or not. -/
theorem unpack_of_pos {x : Float} (h : Value.Number.lt (.whole 0) (.real x) = true) :
    x.toModel.unpack = .infinity .positive ∨
      ∃ m e hm, x.toModel.unpack = .finite .positive m e hm := by
  have hcompare : Binary64.compareInt? x 0 = some .gt := beq_iff_eq.1 h
  rw [Binary64.compareInt?] at hcompare
  cases hx : x.toModel.unpack with
  | notANumber => simp [hx] at hcompare
  | zero s => simp [hx] at hcompare
  | infinity s =>
    cases s with
    | negative => simp [hx] at hcompare
    | positive => exact .inl rfl
  | finite s m e hm =>
    cases s with
    | positive => exact .inr ⟨m, e, hm, rfl⟩
    | negative =>
      simp only [hx] at hcompare
      split at hcompare
      · have hle : -(m : Int) * (Nat.pow 2 e.toNat : Nat) ≤ 0 := by
          rw [Int.neg_mul]
          exact Int.neg_nonpos_of_nonneg (by positivity)
        have hgt := Int.compare_eq_gt.1 (Option.some.inj hcompare)
        omega
      · have hgt := Int.compare_eq_gt.1 (Option.some.inj hcompare)
        omega

/-- What is above the integer zero is above the float zero. -/
theorem zero_lt_of_pos {x : Float} (h : Value.Number.lt (.whole 0) (.real x) = true) :
    0.0 < x := by
  have hzero : (0.0 : Float).toModel.unpack = .zero .positive := rfl
  rw [Binary64.lt_iff, hzero]
  obtain hx | ⟨m, e, hm, hx⟩ := unpack_of_pos h <;> rw [hx] <;> rfl

/-! ## Conversions -/

/-- A conversion keeps to its kind when its default does. -/
theorem exists_of_orElse {α : Type} {converted : Except ValueFault α} {wrap : α → Value} {a : α}
    {w : Value} (h : Value.orElse converted wrap (wrap a) = .ok w) : ∃ b, w = wrap b := by
  rw [Value.orElse.eq_def] at h
  split at h
  · exact ⟨_, (Except.ok.inj h).symm⟩
  · cases h
  · exact ⟨a, (Except.ok.inj h).symm⟩

theorem exists_real_of_coerceFloat {v w : Value} {x : Float}
    (h : v.coerceFloat (.real x) = .ok w) : ∃ y, w = .real y := by
  rw [Value.coerceFloat.eq_def] at h
  split at h
  · exact ⟨x, (Except.ok.inj h).symm⟩
  · exact exists_of_orElse h

theorem exists_int_of_coerceInt {v w : Value} {i : Int} (h : v.coerceInt (.int i) = .ok w) :
    ∃ j, w = .int j := by
  rw [Value.coerceInt.eq_def] at h
  split at h
  · exact ⟨i, (Except.ok.inj h).symm⟩
  · exact ⟨i, (Except.ok.inj h).symm⟩
  · exact exists_of_orElse h

theorem exists_reals_of_coercePoints {vs ws : List Value} (h : coercePoints vs = .ok ws) :
    ∃ xs : List Float, ws = xs.map .real := by
  induction vs generalizing ws with
  | nil =>
    cases h
    exact ⟨[], rfl⟩
  | cons v rest ih =>
    obtain ⟨w, hw, h⟩ := bind_eq_ok_iff.1 h
    obtain ⟨ws', hws, rfl⟩ := map_eq_ok_iff.1 h
    obtain ⟨x, rfl⟩ := exists_real_of_coerceFloat hw
    obtain ⟨xs, rfl⟩ := ih hws
    exact ⟨x :: xs, rfl⟩

theorem exists_reals_of_convertPoints {v w : Value} (h : convertPoints v = .ok w) :
    ∃ xs : List Float, w = .tuple (xs.map .real) := by
  obtain ⟨vs, -, h⟩ := bind_eq_ok_iff.1 h
  obtain ⟨ws, hws, rfl⟩ := map_eq_ok_iff.1 h
  obtain ⟨xs, rfl⟩ := exists_reals_of_coercePoints hws
  exact ⟨xs, rfl⟩

/-- A setting has whatever both its default and all that is converted have. -/
theorem of_convert {fields : Fields} {name : String} {fallback w : Value}
    {conversion : Value → Except ValueFault Value} {P : Value → Prop}
    (h : Settings.convert fields name fallback conversion = .ok w) (hfallback : P fallback)
    (hconversion : ∀ v w, conversion v = .ok w → P w) : P w := by
  rw [Settings.convert] at h
  split at h
  · exact hconversion _ w h
  · cases h
    exact hfallback

theorem exists_real_of_convert {fields : Fields} {name : String} {x : Float} {w : Value}
    (h : Settings.convert fields name (.real x) (fun v => v.coerceFloat (.real x)) = .ok w) :
    ∃ y, w = .real y :=
  of_convert h ⟨x, rfl⟩ fun _ _ => exists_real_of_coerceFloat

theorem exists_int_of_convert {fields : Fields} {name : String} {i : Int} {w : Value}
    (h : Settings.convert fields name (.int i) (fun v => v.coerceInt (.int i)) = .ok w) :
    ∃ j, w = .int j :=
  of_convert h ⟨i, rfl⟩ fun _ _ => exists_int_of_coerceInt

theorem exists_reals_of_convert {fields : Fields} {name : String} {xs : List Float} {w : Value}
    (h : Settings.convert fields name (.tuple (xs.map .real)) convertPoints = .ok w) :
    ∃ ys : List Float, w = .tuple (ys.map .real) :=
  of_convert h ⟨xs, rfl⟩ fun _ _ => exists_reals_of_convertPoints

/-- Settings that have been converted are numbers where numbers are needed. -/
theorem exists_numbers_of_convert {fields : Fields} {p : ValidationPolicy}
    (h : convert fields = .ok p) :
    (∃ points : List Float, p.samplePoints = .tuple (points.map .real)) ∧
      (∃ x, p.period = .real x) ∧ (∃ x, p.periodicityTolerance = .real x) ∧
      (∃ x, p.degeneracyTolerance = .real x) ∧ (∃ x, p.maxMagnitude = .real x) ∧
      ∃ n, p.geometrySamples = .int n := by
  obtain ⟨samplePoints, hpoints, h⟩ := bind_eq_ok_iff.1 h
  obtain ⟨period, hperiod, h⟩ := bind_eq_ok_iff.1 h
  obtain ⟨tolerance, htolerance, h⟩ := bind_eq_ok_iff.1 h
  obtain ⟨degeneracy, hdegeneracy, h⟩ := bind_eq_ok_iff.1 h
  obtain ⟨magnitude, hmagnitude, h⟩ := bind_eq_ok_iff.1 h
  obtain ⟨samples, hsamples, h⟩ := bind_eq_ok_iff.1 h
  cases h
  exact ⟨exists_reals_of_convert hpoints, exists_real_of_convert hperiod,
    exists_real_of_convert htolerance, exists_real_of_convert hdegeneracy,
    exists_real_of_convert hmagnitude, exists_int_of_convert hsamples⟩

/-! ## What is out of range -/

theorem isAbove_of_problem? {fields : Fields} {name : String} {v : Value}
    (h : Settings.problem? fields name = .ok none) (hv : Settings.lookup fields name = some v) :
    v.isAbove (.whole 0) = .ok true := by
  rw [Settings.problem?, hv] at h
  split at h
  · cases h
  · cases h
  · next u hu heq =>
    cases heq
    obtain ⟨positive, hpos, hnone⟩ := bind_eq_ok_iff.1 h
    cases positive with
    | true => exact hpos
    | false =>
      obtain ⟨_, -, hsome⟩ := map_eq_ok_iff.1 hnone
      cases hsome

theorem problem?_of_problems {fields : Fields} {names : List String}
    (h : Settings.problems fields names = .ok []) {name : String} (hname : name ∈ names) :
    Settings.problem? fields name = .ok none := by
  induction names with
  | nil => simp at hname
  | cons first rest ih =>
    obtain ⟨p, hp, h⟩ := bind_eq_ok_iff.1 h
    obtain ⟨ps, hps, happend⟩ := map_eq_ok_iff.1 h
    obtain ⟨hnone, rfl⟩ := List.append_eq_nil_iff.1 happend
    rcases List.mem_cons.1 hname with rfl | hname
    · cases p with
      | none => exact hp
      | some p => cases hnone
    · exact ih hps hname

/-! ## Policies read from settings -/

theorem convert_of_ofSettings {fields : Fields} {p : ValidationPolicy}
    (h : ofSettings fields = .ok p) :
    convert (Settings.keep names (Settings.renameAll aliases fields)) = .ok p ∧
      p.problems = .ok [] := by
  obtain ⟨q, hq, h⟩ := bind_eq_ok_iff.1 h
  obtain ⟨problems, hproblems, h⟩ := bind_eq_ok_iff.1 h
  split at h
  · cases h
    exact ⟨mapError_eq_ok_iff.1 hq, mapError_eq_ok_iff.1 hproblems⟩
  · cases h

/-- A policy without problems has sample points, and its positive settings are positive. -/
theorem of_problems_eq_nil {p : ValidationPolicy} (h : p.problems = .ok []) :
    p.samplePoints.truthy = true ∧ ∀ name ∈ positiveNames, ∀ v,
      Settings.lookup p.toFields name = some v → v.isAbove (.whole 0) = .ok true := by
  obtain ⟨ps, hps, h⟩ := map_eq_ok_iff.1 h
  split at h
  · next htruthy =>
    cases h
    exact ⟨htruthy, fun name hname v hv => isAbove_of_problem? (problem?_of_problems hps hname) hv⟩
  · simp at h

/-- **A policy read from settings holds numbers**, and they are in range. -/
theorem nonempty_figures {fields : Fields} {p : ValidationPolicy}
    (h : ofSettings fields = .ok p) : Nonempty p.Figures := by
  obtain ⟨hconvert, hproblems⟩ := convert_of_ofSettings h
  obtain ⟨htruthy, hpositive⟩ := of_problems_eq_nil hproblems
  obtain ⟨⟨points, hpoints⟩, ⟨period, hperiod⟩, ⟨tolerance, htolerance⟩, ⟨degeneracy, hdegeneracy⟩,
    ⟨magnitude, hmagnitude⟩, ⟨samples, hsamples⟩⟩ := exists_numbers_of_convert hconvert
  have hreal : ∀ name ∈ positiveNames, ∀ x, Settings.lookup p.toFields name = some (.real x) →
      Value.Number.lt (.whole 0) (.real x) = true := fun name hname x hx =>
    Except.ok.inj (hpositive name hname _ hx)
  have hint := Except.ok.inj
    (hpositive "geometry_samples" (by decide) (.int samples) (congrArg some hsamples))
  exact ⟨{
    points, period, tolerance, degeneracy, magnitude, samples
    samplePoints_eq := hpoints
    period_eq := hperiod
    tolerance_eq := htolerance
    degeneracy_eq := hdegeneracy
    magnitude_eq := hmagnitude
    samples_eq := hsamples
    points_ne_nil := by
      rintro rfl
      rw [hpoints] at htruthy
      cases htruthy
    period_pos := hreal "period" (by decide) _ (congrArg some hperiod)
    tolerance_pos := hreal "periodicity_tolerance" (by decide) _ (congrArg some htolerance)
    degeneracy_pos := hreal "degeneracy_tolerance" (by decide) _ (congrArg some hdegeneracy)
    magnitude_pos := hreal "max_magnitude" (by decide) _ (congrArg some hmagnitude)
    samples_pos := of_decide_eq_true hint }⟩

end ValidationPolicy

/-! ## Policies for sampling -/

namespace SamplingPolicy

open ValidationPolicy (exists_int_of_convert exists_real_of_convert isAbove_of_problem?
  problem?_of_problems)

/-- The numbers that a policy for sampling holds. -/
structure Figures (p : SamplingPolicy) where
  count : Int
  period : Float
  segments_eq : p.segments = .int count
  period_eq : p.period = .real period
  count_pos : 0 < count
  period_pos : Value.Number.lt (.whole 0) (.real period) = true

theorem convert_of_ofSettings {fields : Fields} {p : SamplingPolicy}
    (h : ofSettings fields = .ok p) :
    convert (Settings.keep names fields) = .ok p ∧ p.problems = .ok [] := by
  obtain ⟨q, hq, h⟩ := bind_eq_ok_iff.1 h
  obtain ⟨problems, hproblems, h⟩ := bind_eq_ok_iff.1 h
  split at h
  · cases h
    exact ⟨mapError_eq_ok_iff.1 hq, mapError_eq_ok_iff.1 hproblems⟩
  · cases h

/-- **A policy for sampling that is read from settings holds numbers**, and they are in range. -/
theorem nonempty_figures {fields : Fields} {p : SamplingPolicy}
    (h : ofSettings fields = .ok p) : Nonempty p.Figures := by
  obtain ⟨hconvert, hproblems⟩ := convert_of_ofSettings h
  have hpositive : ∀ name ∈ ["segments", "period"], ∀ v,
      Settings.lookup p.toFields name = some v → v.isAbove (.whole 0) = .ok true :=
    fun name hname v hv => isAbove_of_problem? (problem?_of_problems hproblems hname) hv
  obtain ⟨segments, hsegments, h⟩ := bind_eq_ok_iff.1 hconvert
  obtain ⟨period, hperiod, h⟩ := bind_eq_ok_iff.1 h
  obtain ⟨endpoint, -, h⟩ := bind_eq_ok_iff.1 h
  cases h
  obtain ⟨n, rfl⟩ := exists_int_of_convert hsegments
  obtain ⟨x, rfl⟩ := exists_real_of_convert hperiod
  have hcount := Except.ok.inj (hpositive "segments" (by decide) (.int n) rfl)
  exact ⟨{
    count := n
    period := x
    segments_eq := rfl
    period_eq := rfl
    count_pos := of_decide_eq_true hcount
    period_pos := Except.ok.inj (hpositive "period" (by decide) (.real x) rfl) }⟩

end SamplingPolicy
end SpaceCurve
