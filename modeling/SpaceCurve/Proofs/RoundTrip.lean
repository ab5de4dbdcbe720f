import SpaceCurve.Proofs.PolicyValues
import SpaceCurve.Proofs.Rewording

/-!
# Policies that are written down and read again

Reading settings puts them in order: a text becomes the number it stands for, what cannot be
converted gives way to a default, older names become current ones.  Writing a policy down and
reading it again therefore has to change nothing, for everything is in order already.  This is not
so for a policy that is put together by hand; it rests on what a policy holds that was read
(`ValidationPolicy.Figures`).

Where a setting is any value at all, as those are that switch a check on, the value stays what it
is.

## What is here

* `coerceFloat_real`, `coerceInt_int`, `convertPoints_reals` — a conversion leaves alone what it
  makes.
* `ValidationPolicy.convert_written`, `SamplingPolicy.convert_written` — so the settings of a policy
  with `Figures` are converted into the same policy.
* `ValidationPolicy.InRange` — what can be relied on in a policy that was read.
-/

set_option autoImplicit false

namespace SpaceCurve

/-- A float above zero. -/
def Value.IsPositive (v : Value) : Prop := ∃ x : Float, v = .real x ∧ 0.0 < x

/-! ## Conversions of what is converted -/

theorem Value.coerceFloat_real (x : Float) (default : Value) :
    (Value.real x).coerceFloat default = .ok (.real x) := rfl

theorem Value.coerceInt_int (i : Int) (default : Value) :
    (Value.int i).coerceInt default = .ok (.int i) := rfl

/-- A setting that its conversion leaves alone. -/
theorem Settings.convert_of_fixed {fields : Fields} {name : String} {v default : Value}
    {conversion : Value → Except ValueFault Value} (hget : fields.get? name = some v)
    (hfixed : conversion v = .ok v) : convert fields name default conversion = .ok v := by
  rw [convert, hget]
  exact hfixed

namespace ValidationPolicy

theorem coercePoints_reals (xs : List Float) :
    coercePoints (xs.map .real) = .ok (xs.map .real) := by
  induction xs with
  | nil => rfl
  | cons x rest ih =>
    rw [List.map_cons, coercePoints, Value.coerceFloat_real, ih]
    rfl

theorem convertPoints_reals (xs : List Float) :
    convertPoints (.list (xs.map .real)) = .ok (.tuple (xs.map .real)) := by
  show (coercePoints (xs.map .real)).map Value.tuple = _
  rw [coercePoints_reals]
  rfl

/-! ## Policies for validation -/

/-- The settings of a policy that was read, as they are written down. -/
def written {p : ValidationPolicy} (fig : p.Figures) : Fields :=
  p.toFields.set "sample_points" (.list (fig.points.map .real))

variable {p : ValidationPolicy}

theorem toSettings_eq (fig : p.Figures) : p.toSettings = .ok (written fig) := by
  rw [toSettings, fig.samplePoints_eq]
  rfl

theorem convert_written (fig : p.Figures) : convert (written fig) = .ok p := by
  have hpoints : Settings.convert (written fig) "sample_points" default.samplePoints
      convertPoints = .ok p.samplePoints := by
    rw [fig.samplePoints_eq]
    exact convertPoints_reals fig.points
  have hfloat (name : String) (v : Value) {x : Float} (d : Value) (hv : v = .real x)
      (hget : (written fig).get? name = some v) :
      Settings.convert (written fig) name d (fun v => v.coerceFloat d) = .ok v := by
    subst hv
    exact Settings.convert_of_fixed hget (Value.coerceFloat_real x d)
  have hperiod (d : Value) := hfloat "period" p.period d fig.period_eq rfl
  have htolerance (d : Value) :=
    hfloat "periodicity_tolerance" p.periodicityTolerance d fig.tolerance_eq rfl
  have hdegeneracy (d : Value) :=
    hfloat "degeneracy_tolerance" p.degeneracyTolerance d fig.degeneracy_eq rfl
  have hmagnitude (d : Value) := hfloat "max_magnitude" p.maxMagnitude d fig.magnitude_eq rfl
  have hsamples (d : Value) : Settings.convert (written fig) "geometry_samples" d
      (fun v => v.coerceInt d) = .ok p.geometrySamples := by
    refine Settings.convert_of_fixed rfl ?_
    rw [fig.samples_eq, Value.coerceInt_int]
  simp only [convert, hpoints, hperiod, htolerance, hdegeneracy, hmagnitude, hsamples]
  rfl

/-- Every name of a setting is in use where a policy is written down, so no older name counts. -/
theorem stated_written (fig : p.Figures) :
    ∀ name ∈ names, Settings.stated aliases (written fig) name = (written fig).get? name := by
  have hused : names.all (written fig).has = true := rfl
  intro name hname
  obtain ⟨v, hv⟩ := Fields.has_eq_true_iff.1 (List.all_eq_true.1 hused name hname)
  rw [Settings.stated, hv]
  rfl

/-- What can be relied on in a policy that was read: its numbers are numbers and in range. -/
structure InRange (p : ValidationPolicy) : Prop where
  period : p.period.IsPositive
  periodicityTolerance : p.periodicityTolerance.IsPositive
  degeneracyTolerance : p.degeneracyTolerance.IsPositive
  maxMagnitude : p.maxMagnitude.IsPositive
  geometrySamples : ∃ n : Int, p.geometrySamples = .int n ∧ 1 ≤ n
  samplePoints : ∃ points : List Float, p.samplePoints = .tuple (points.map .real) ∧ points ≠ []

theorem Figures.inRange (fig : p.Figures) : p.InRange where
  period := ⟨fig.period, fig.period_eq, zero_lt_of_pos fig.period_pos⟩
  periodicityTolerance := ⟨fig.tolerance, fig.tolerance_eq, zero_lt_of_pos fig.tolerance_pos⟩
  degeneracyTolerance := ⟨fig.degeneracy, fig.degeneracy_eq, zero_lt_of_pos fig.degeneracy_pos⟩
  maxMagnitude := ⟨fig.magnitude, fig.magnitude_eq, zero_lt_of_pos fig.magnitude_pos⟩
  geometrySamples := ⟨fig.samples, fig.samples_eq, fig.samples_pos⟩
  samplePoints := ⟨fig.points, fig.samplePoints_eq, fig.points_ne_nil⟩

theorem reread_eq (fig : p.Figures) (hproblems : p.problems = .ok []) : p.reread = .ok p := by
  have hconvert : convert (understood (written fig)) = .ok p := by
    rw [← convert_written fig]
    refine convert_congr fun name hname => ?_
    rw [get?_understood, if_pos hname, stated_written fig name hname]
  have hread : ofSettings (written fig) = .ok p :=
    bind_eq_ok_iff.2 ⟨p, mapError_eq_ok_iff.2 hconvert,
      bind_eq_ok_iff.2 ⟨[], mapError_eq_ok_iff.2 hproblems, rfl⟩⟩
  exact bind_eq_ok_iff.2 ⟨written fig, mapError_eq_ok_iff.2 (toSettings_eq fig), hread⟩

end ValidationPolicy

/-! ## Policies for sampling -/

namespace SamplingPolicy

variable {p : SamplingPolicy}

theorem convert_toFields (fig : p.Figures) : convert p.toFields = .ok p := by
  have hsegments (d : Value) : Settings.convert p.toFields "segments" d
      (fun v => v.coerceInt d) = .ok p.segments := by
    refine Settings.convert_of_fixed rfl ?_
    rw [fig.segments_eq, Value.coerceInt_int]
  have hperiod (d : Value) : Settings.convert p.toFields "period" d
      (fun v => v.coerceFloat d) = .ok p.period := by
    refine Settings.convert_of_fixed rfl ?_
    rw [fig.period_eq, Value.coerceFloat_real]
  simp only [convert, hsegments, hperiod]
  rfl

theorem ofSettings_toFields (fig : p.Figures) (hproblems : p.problems = .ok []) :
    ofSettings p.toFields = .ok p := by
  have hconvert : convert (Settings.keep names p.toFields) = .ok p := convert_toFields fig
  exact bind_eq_ok_iff.2 ⟨p, mapError_eq_ok_iff.2 hconvert,
    bind_eq_ok_iff.2 ⟨[], mapError_eq_ok_iff.2 hproblems, rfl⟩⟩

end SamplingPolicy

/-- **Policies survive being written down.**  Take any settings that make a policy for validation.
Its numbers are in range, nothing is out of range in it, and the policy that is read from its own
settings is the same in every setting, whatever the settings that are stored as they are may hold.
A policy for sampling that was read from any settings is read again from its own, too. -/
theorem policies_survive :
    (∀ (fields : Fields) (p : ValidationPolicy), ValidationPolicy.ofSettings fields = .ok p →
      p.reread = .ok p ∧ p.problems = .ok [] ∧ p.InRange) ∧
    ∀ (fields : Fields) (p : SamplingPolicy), SamplingPolicy.ofSettings fields = .ok p →
      SamplingPolicy.ofSettings p.toFields = .ok p := by
  constructor
  · intro fields p h
    obtain ⟨-, hproblems⟩ := ValidationPolicy.convert_of_ofSettings h
    obtain ⟨fig⟩ := ValidationPolicy.nonempty_figures h
    exact ⟨ValidationPolicy.reread_eq fig hproblems, hproblems, fig.inRange⟩
  · intro fields p h
    obtain ⟨-, hproblems⟩ := SamplingPolicy.convert_of_ofSettings h
    obtain ⟨fig⟩ := SamplingPolicy.nonempty_figures h
    exact SamplingPolicy.ofSettings_toFields fig hproblems

/-- Settings that need all of it: an older name, text for numbers, a period without end, a switch
that is no truth value, and a name that means nothing. -/
def casual : Fields :=
  [("tolerance", .text "1"), ("period", .text "inf"), ("sample_points", .list [.null, .bool true]),
    ("check_geometry", .list [.text "no"]), ("geometry_samples", .real 7.5), ("colour", .null)]

/-- They make a policy of either kind, and each is read again as it is. -/
theorem policies_survive_casual :
    (∃ p : ValidationPolicy, ValidationPolicy.ofSettings casual = .ok p ∧
      p.checkGeometry = .list [.text "no"] ∧
      p.reread = .ok p ∧ p.problems = .ok [] ∧ p.InRange) ∧
    ∃ p : SamplingPolicy, SamplingPolicy.ofSettings casual = .ok p ∧
      SamplingPolicy.ofSettings p.toFields = .ok p := by
  have hvalidation : ∃ p : ValidationPolicy, ValidationPolicy.ofSettings casual = .ok p ∧
      p.checkGeometry = .list [.text "no"] := ⟨_, rfl, rfl⟩
  have hsampling : ∃ p : SamplingPolicy, SamplingPolicy.ofSettings casual = .ok p := ⟨_, rfl⟩
  obtain ⟨p, hp, hswitch⟩ := hvalidation
  obtain ⟨q, hq⟩ := hsampling
  exact ⟨⟨p, hp, hswitch, policies_survive.1 casual p hp⟩, q, hq, policies_survive.2 casual q hq⟩

end SpaceCurve
