import SpaceCurve.Proofs.FloatOrder
import SpaceCurve.Proofs.Verdicts

/-!
# Whether a valid curve closes

A verdict without findings, under a policy that asks for periodicity and is strict about it, should
mean that the curve comes back to where it began: on each axis, the values at zero and at the period
are finite and no further apart than the tolerance.  This is `Closes`.

It is not quite so.  The comparison lets a distance that is `nan` pass and leaves it to the sample
points, and the period need not be among them; it is not under the default policy.  `pinched` has
three equations of which the last has no value at the period, and is valid
(`not_closes_of_isValid`).  An infinite tolerance lets infinite values pass as well.

What does hold is `closes_of_isValid`: a distance that is a number is within the tolerance.  Only
`nan` and two equal infinities have none, and a value is finite when its parameter is a sample
point.
-/

set_option autoImplicit false

namespace SpaceCurve

open Validation

/-- The values of the axis at zero and at the period are finite and at most the tolerance apart. -/
def Closes (sources : Triple Value) (p : ValidationPolicy) (axis : Axis) : Prop :=
  ∃ e a b tolerance, Equation.parse (sources.get axis) = .ok e ∧
    e.evaluate (.real 0.0) = .ok a ∧ e.evaluate p.period = .ok b ∧
    p.periodicityTolerance = .real tolerance ∧ a.isFinite = true ∧ b.isFinite = true ∧
    (a - b).abs ≤ tolerance

/-! ## What does hold -/

variable {p : ValidationPolicy} {sources : Triple Value} {v : Verdict}

/-- **A valid curve closes as far as its ends can be compared.**  Under a policy read from settings
that asks for periodicity and is strict, each axis has a value at zero and one at the period.
Unless one of them is `nan` or they are the same infinity, they are at most the tolerance apart,
and if the tolerance is finite so are they.  A value is finite when its parameter is one of the
sample points. -/
theorem closes_of_isValid [Machine] {settings : Fields} (hp : ValidationPolicy.ofSettings settings = .ok p)
    (hperiodicity : p.checkPeriodicity.truthy = true) (hstrict : p.strictGeometry.truthy = true)
    (hv : validate sources p = .ok v) (hvalid : v.isValid = true) (axis : Axis) :
    ∃ e a b tolerance, Equation.parse (sources.get axis) = .ok e ∧
      e.evaluate (.real 0.0) = .ok a ∧ e.evaluate p.period = .ok b ∧
      p.periodicityTolerance = .real tolerance ∧
      ((a.isNaN = true ∨ b.isNaN = true ∨ a.isInf = true ∧ (a == b) = true) ∨
        (a - b).abs ≤ tolerance ∧
          (tolerance.isFinite = true → a.isFinite = true ∧ b.isFinite = true)) ∧
      ∀ points, p.samplePoints = .tuple points →
        (.real 0.0 ∈ points → a.isFinite = true) ∧ (p.period ∈ points → b.isFinite = true) := by
  obtain ⟨fig⟩ := ValidationPolicy.nonempty_figures hp
  obtain ⟨hrejected, hbroken, hopen⟩ := of_isValid fig hstrict hv hvalid axis
  cases hparse : Equation.parse (sources.get axis) with
  | error fault => exact absurd ⟨fault, hparse⟩ hrejected
  | ok e =>
    obtain ⟨a, b, ha, hb, -⟩ := exists_isPeriodic fig hparse
    have hfinite : ∀ points t y, p.samplePoints = .tuple points → t ∈ points →
        e.evaluate t = .ok y → y.isFinite = true := by
      intro points t y hpoints ht hy
      cases hcases : y.isFinite with
      | true => rfl
      | false => exact absurd ⟨e, points, t, y, hparse, hpoints, ht, hy, hcases⟩ hbroken
    have hnotLt : ¬ fig.tolerance < (a - b).abs := fun hlt =>
      hopen ⟨hperiodicity, e, a, b, fig.tolerance, hparse, ha, hb, fig.tolerance_eq, hlt⟩
    refine ⟨e, a, b, fig.tolerance, rfl, ha, hb, fig.tolerance_eq, ?_, fun points hpoints => ?_⟩
    · rw [← Binary64.isNaN_abs_sub_iff]
      by_cases hnan : (a - b).abs.isNaN = true
      · exact .inl hnan
      · have hle := Binary64.le_of_not_lt (Bool.eq_false_iff.2 hnan)
          (ValidationPolicy.isNaN_of_pos fig.tolerance_pos) hnotLt
        exact .inr ⟨hle, fun ht => Binary64.isFinite_of_abs_sub_le ht hle⟩
    · exact ⟨fun h0 => hfinite points _ a hpoints h0 ha,
        fun hperiod => hfinite points _ b hpoints hperiod hb⟩

/-- Two parabolas over one turn, and a constant. -/
def parabolas : Triple Value := ⟨.text "t*(2*pi-t)", .text "t*(t-2*pi)", .text "1"⟩

/-- The default policy with sample points at both ends of the period and nowhere else. -/
def sampledAtEnds : ValidationPolicy :=
  { ValidationPolicy.default with samplePoints := .tuple [.real 0.0, .real Binary64.tau] }

theorem closes_of_isValid_parabolas :
    letI := Machine.ample
    ValidationPolicy.ofSettings
        [("sample_points", .list [.real 0.0, .real Binary64.tau])] = .ok sampledAtEnds ∧
      ∃ v, validate parabolas sampledAtEnds = .ok v ∧ v.isValid = true ∧
        Closes parabolas sampledAtEnds .x := by
  let _ := Machine.ample
  have hp : ValidationPolicy.ofSettings
      [("sample_points", .list [.real 0.0, .real Binary64.tau])] = .ok sampledAtEnds := rfl
  have hrun : (validate parabolas sampledAtEnds).map Verdict.isValid = .ok true := by
    decide +kernel
  obtain ⟨v, hv, hvalid⟩ := map_eq_ok_iff.1 hrun
  obtain ⟨e, a, b, tolerance, he, ha, hb, htolerance, hclose, hfinite⟩ :=
    closes_of_isValid hp rfl rfl hv hvalid .x
  obtain ⟨hfirst, hlast⟩ := hfinite _ rfl
  have hafin := hfirst (by simp)
  have hbfin := hlast (List.mem_cons_of_mem _ (.head _))
  rcases hclose with (hnan | hnan | ⟨hinf, -⟩) | ⟨hle, -⟩
  · rw [Binary64.isNaN_of_isFinite hafin] at hnan
    cases hnan
  · rw [Binary64.isNaN_of_isFinite hbfin] at hnan
    cases hnan
  · rw [Binary64.isInf_of_isFinite hafin] at hinf
    cases hinf
  · exact ⟨hp, v, hv, hvalid, e, a, b, tolerance, he, ha, hb, htolerance, hafin, hbfin, hle⟩

/-! ## A valid curve that does not close -/

/-- Three equations of which the last has no value after one turn. -/
def pinched : Triple Value :=
  ⟨.text "t*(2*pi-t)", .text "t*(2*pi-t)", .text "(t-2*pi)/(t-2*pi)"⟩

/-- **A valid curve need not close**, under the default policy. -/
theorem not_closes_of_isValid :
    letI := Machine.ample
    ¬ ∀ (settings : Fields) (p : ValidationPolicy) (sources : Triple Value) (v : Verdict),
      ValidationPolicy.ofSettings settings = .ok p → p.checkPeriodicity.truthy = true →
      p.strictGeometry.truthy = true → validate sources p = .ok v → v.isValid = true →
      ∀ axis, Closes sources p axis := by
  let _ := Machine.ample
  intro h
  have hrun : (validate pinched .default).map Verdict.isValid = .ok true := by
    decide +kernel
  -- at the period the last equation is zero divided by zero
  have hvalue : (Equation.parse (pinched.get .z)).map
      (fun e => (e.evaluate ValidationPolicy.default.period).map Float.isFinite) =
        .ok (.ok false) := by
    decide +kernel
  obtain ⟨v, hv, hvalid⟩ := map_eq_ok_iff.1 hrun
  obtain ⟨e, a, b, tolerance, he, -, hb, -, -, hfinite, -⟩ :=
    h [] .default pinched v rfl rfl rfl hv hvalid .z
  rw [he, Except.map, hb, Except.map, hfinite] at hvalue
  cases hvalue

/-- Three equations without a value at zero. -/
def poles : Triple Value := ⟨.text "1/t", .text "1/t", .text "1/t"⟩

/-- A policy that tolerates any distance and samples a single point. -/
def tolerant : ValidationPolicy :=
  { ValidationPolicy.default with
    samplePoints := .tuple [.real 1.0]
    checkGeometry := .bool false
    periodicityTolerance := .real (1.0 / 0.0) }

/-- Nor need it have finite ends when the tolerance is infinite. -/
theorem not_closes_poles :
    letI := Machine.ample
    ValidationPolicy.ofSettings [("sample_points", .list [.real 1.0]),
        ("check_geometry", .bool false), ("periodicity_tolerance", .text "inf")] = .ok tolerant ∧
      (∃ v, validate poles tolerant = .ok v ∧ v.isValid = true) ∧
      ¬ Closes poles tolerant .x := by
  let _ := Machine.ample
  have hrun : (validate poles tolerant).map Verdict.isValid = .ok true := by
    decide +kernel
  have hvalue : (Equation.parse (poles.get .x)).map
      (fun e => (e.evaluate (.real 0.0)).map Float.isFinite) = .ok (.ok false) := by
    decide +kernel
  refine ⟨rfl, map_eq_ok_iff.1 hrun, ?_⟩
  rintro ⟨e, a, b, tolerance, he, ha, -, -, hfinite, -⟩
  rw [he, Except.map, ha, Except.map, hfinite] at hvalue
  cases hvalue

end SpaceCurve
