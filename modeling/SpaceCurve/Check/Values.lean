import SpaceCurve.Check
import SpaceCurve.Fault

/-!
# Checks on the values of an equation

An equation must be finite at the sample points, and its values at zero and one period later must
not differ by more than a tolerance. A difference that is no number is left to the sample points.
-/

set_option autoImplicit false

namespace SpaceCurve

/-! ## Sample points -/

/-- The values of an equation at its sample points, and the first point where it is not finite. -/
structure SampleValues where
  points : List Value
  values : List Float
  firstInvalid : Option Value

namespace SampleValues

/-- The values at some points, one after another. -/
def evaluateAt (e : Equation) : List Value → Except EvaluationError (List Float)
  | [] => .ok []
  | t :: rest => (e.evaluate t).bind fun x => (evaluateAt e rest).map fun xs => x :: xs

/-- The first of the points whose value is not finite. -/
def firstInvalidOf (points : List Value) (values : List Float) : Option Value :=
  ((points.zip values).find? fun p => !p.2.isFinite).map (·.1)

/-- The values of an equation at the elements of a value. -/
def of (e : Equation) (points : Value) : Except Fault SampleValues := do
  let ts ← points.elements.mapError .value
  let xs ← (evaluateAt e ts).mapError .evaluation
  return ⟨ts, xs, firstInvalidOf ts xs⟩

/-- Whether all values are finite. -/
def passed (s : SampleValues) : Bool := s.firstInvalid.isNone

/-- The report on the values at the sample points. -/
def report (s : SampleValues) : Fields :=
  Check.reportOf .sampleValues s.passed
    [("sample_points", .list s.points), ("values", .list (s.values.map .real)),
      ("first_invalid_t", s.firstInvalid.getD .null)]

end SampleValues

/-! ## Periodicity -/

/-- The values of an equation at zero and after one period. -/
structure Periodicity where
  start : Float
  stop : Float
  tolerance : Value
  passed : Bool

namespace Periodicity

/-- The distance between the two values. -/
def difference (p : Periodicity) : Float := (p.start - p.stop).abs

/-- Whether two values differ by more than a tolerance. -/
def exceeds (start stop : Float) (tolerance : Value) : Except ValueFault Bool :=
  tolerance.isBelow (.real (start - stop).abs)

/-- The comparison of the values at zero and after one period. -/
def of (e : Equation) (period tolerance : Value) : Except Fault Periodicity := do
  let start ← (e.evaluate (.real 0.0)).mapError .evaluation
  let stop ← (e.evaluate period).mapError .evaluation
  let apart ← (exceeds start stop tolerance).mapError .value
  return ⟨start, stop, tolerance, !apart⟩

/-- The report on the periodicity of an equation. -/
def report (p : Periodicity) : Fields :=
  Check.reportOf .periodicity p.passed
    [("value_at_0", .real p.start), ("value_at_period", .real p.stop),
      ("difference", .real p.difference), ("tolerance", p.tolerance)]

end Periodicity
end SpaceCurve
