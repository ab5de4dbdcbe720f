import SpaceCurve.Equation

/-!
# Faults

What can go wrong when a curve is sampled, checked or validated: a setting that is no usable
value, an evaluation without a result, too few segments, and points of which there are none.
-/

set_option autoImplicit false

namespace SpaceCurve

/-- Why sampling or checking has no result. -/
inductive Fault where
  /-- A setting or a threshold cannot be used as the value that it is. -/
  | value (cause : ValueFault)
  /-- An equation has no value at a parameter. -/
  | evaluation (cause : EvaluationError)
  /-- Less than one segment was asked for. -/
  | tooFewSegments (given : String)
  /-- There is no first point to compare with. -/
  | noPoints
  deriving DecidableEq, Repr

/-- The complaint about a number of segments. -/
def Fault.segmentsMessage (given : String) : String := "segments must be positive, got " ++ given

end SpaceCurve
