import SpaceCurve.Check.Geometry
import SpaceCurve.Check.Source
import SpaceCurve.Check.Values
import SpaceCurve.Policy.Validation
import SpaceCurve.Sampling
import SpaceCurve.Verdict

/-!
# Validation

Three sources of any kind go through the stages of the checks. An axis that fails one of the first
three stages is left out afterwards; the points of the curve are looked at only when all axes are
finite at the sample points.

A run is a list of events in the order in which they happen. The findings of the verdict are the
failures among them; a policy that is not strict turns those about the geometry into warnings.
-/

set_option autoImplicit false

namespace SpaceCurve

/-- A check that failed, on an axis or on the whole curve, and the text about it. -/
structure Failure where
  check : Check
  axis : Option Axis
  text : String
  deriving DecidableEq, Repr

namespace Failure

/-- The failure in words; what is about an axis begins with its name. -/
def message (f : Failure) : String :=
  match f.axis with
  | some axis => axis.capital ++ " " ++ f.text
  | none => f.text

/-- The failure as a finding. -/
def finding (f : Failure) : Finding :=
  { message := .text f.message
    axis :=
      match f.axis with
      | some axis => .text axis.name
      | none => .null
    kind := f.check.kind
    check := .text f.check.name }

/-- A check that failed on an axis. -/
def onAxis (check : Check) (axis : Axis) : Failure := ⟨check, some axis, check.failedText⟩

/-- A check that failed on the whole curve. -/
def joint (check : Check) : Failure := ⟨check, none, check.failedText⟩

end Failure

/-- What happens while a curve is validated. -/
inductive Event where
  /-- A text was no equation. -/
  | rejected (source : Value) (error : SyntaxError)
  /-- Some of the sampled points of a curve are not finite. -/
  | nonFinite (sources : Triple String) (count : Nat) (total : Nat)
  /-- A floating-point exception of array arithmetic was noticed. -/
  | warned (w : FloatWarning)
  /-- A check failed. -/
  | failed (failure : Failure)

namespace Event

/-- The failure that the event is. -/
def failure? : Event → Option Failure
  | failed f => some f
  | _ => none

/-- The failures among some events. -/
def failures (events : List Event) : List Failure := events.filterMap failure?

/-- The warning that the event is. -/
def warning? : Event → Option FloatWarning
  | warned w => some w
  | _ => none

/-- The warnings among some events. -/
def warnings (events : List Event) : List FloatWarning := events.filterMap warning?

end Event

variable [Machine]

namespace Validation

/-! ## Checks on the sources -/

/-- The axes that have an equation. -/
def present (sources : Triple Value) : List Axis :=
  Axis.all.filter fun axis => isPresent (sources.get axis)

/-- The axes that have none. -/
def absent (sources : Triple Value) : List Axis :=
  Axis.all.filter fun axis => !isPresent (sources.get axis)

/-- Whether the parentheses on an axis match. -/
def isBalanced (source : Value) : Bool :=
  match source with
  | .text s => (Balance.ofText s.toList).isBalanced
  | _ => false

/-- The axes whose parentheses match, of those that have an equation. -/
def balanced (sources : Triple Value) : List Axis :=
  (present sources).filter fun axis => isBalanced (sources.get axis)

/-- The axes whose parentheses do not match, of those that have an equation. -/
def unbalanced (sources : Triple Value) : List Axis :=
  (present sources).filter fun axis => !isBalanced (sources.get axis)

/-- What happens when the equation of an axis is parsed. -/
def parseEvents (sources : Triple Value) (axis : Axis) : List Event :=
  match Equation.parse (sources.get axis) with
  | .ok _ => []
  | .error e =>
    [.rejected (sources.get axis) e, .failed ⟨.grammar, some axis, Check.grammarText e⟩]

/-- The equation of an axis under the axis, if it parses. -/
def parsedOn? (sources : Triple Value) (axis : Axis) : Option (Axis × Equation) :=
  ((Equation.parse (sources.get axis)).toOption).map fun e => (axis, e)

/-- The equations that got through the first three stages. -/
def parsed (sources : Triple Value) : List (Axis × Equation) :=
  (balanced sources).filterMap (parsedOn? sources)

/-- What happens in the first three stages. -/
def sourceEvents (sources : Triple Value) : List Event :=
  (absent sources).map (fun axis => .failed (.onAxis .empty axis)) ++
    (unbalanced sources).map (fun axis => .failed (.onAxis .parentheses axis)) ++
    (balanced sources).flatMap (parseEvents sources)

/-! ## Checks on the values -/

/-- The axes that fail a check, in order. -/
def failingAxes (passes : Equation → Except Fault Bool) :
    List (Axis × Equation) → Except Fault (List Axis)
  | [] => .ok []
  | (axis, e) :: rest =>
    (passes e).bind fun ok =>
      (failingAxes passes rest).map fun axes => if ok then axes else axis :: axes

/-- Whether an equation is finite at the sample points of a policy. -/
def isFiniteAtSamples (policy : ValidationPolicy) (e : Equation) : Except Fault Bool :=
  (SampleValues.of e policy.samplePoints).map SampleValues.passed

/-- Whether an equation closes after the period of a policy. -/
def isPeriodic (policy : ValidationPolicy) (e : Equation) : Except Fault Bool :=
  (Periodicity.of e policy.period policy.periodicityTolerance).map Periodicity.passed

/-- The axes that are not periodic, where the policy asks for it. -/
def aperiodicAxes (policy : ValidationPolicy) (equations : List (Axis × Equation)) :
    Except Fault (List Axis) :=
  if policy.checkPeriodicity.truthy then failingAxes (isPeriodic policy) equations else .ok []

/-! ## Checks on the points -/

/-- How the policy wants the points of a curve sampled. -/
def samplingPolicy (policy : ValidationPolicy) : SamplingPolicy :=
  { SamplingPolicy.default with segments := policy.geometrySamples, period := policy.period }

/-- What happens when the points of a curve are checked. -/
def geometryEvents (policy : ValidationPolicy) (c : Curve) : Except Fault (List Event) := do
  let points ← c.sample (samplingPolicy policy)
  let spread ← Spread.of points policy.degeneracyTolerance
  let magnitude ← (Magnitude.of points policy.maxMagnitude).mapError .value
  let bad := Sampling.countNonFinite points
  return (if Sampling.isEndless policy.period then [.warned .invalid] else []) ++
    (if bad == 0 then [] else [.nonFinite c.sources bad points.rows.length]) ++
    (if Spread.overflows points then [.warned .overflow] else []) ++
    (if spread.degenerate then [.failed (.joint .degenerate)] else []) ++
    (if magnitude.passed then [] else [.failed (.joint .magnitude)])

/-- The curve of three equations, if all three are there. -/
def curveOf? (equations : List (Axis × Equation)) : Option Curve :=
  match equations with
  | [(_, x), (_, y), (_, z)] => some ⟨x, y, z⟩
  | _ => none

/-- The curve whose points are checked: there is one if the policy wants it and all axes are
finite at the sample points. -/
def geometryCurve? (policy : ValidationPolicy) (equations : List (Axis × Equation))
    (infinite : List Axis) : Option Curve :=
  if policy.checkGeometry.truthy && infinite.isEmpty then curveOf? equations else none

/-! ## The whole run -/

/-- A run of the validation: what happened, which axes have an equation, and whether the points of
the curve were checked. -/
structure Run where
  events : List Event
  parsedAxes : List Axis
  geometryChecked : Bool

/-- The run of all stages. -/
def run (sources : Triple Value) (policy : ValidationPolicy) : Except Fault Run := do
  let equations := parsed sources
  let infinite ← failingAxes (isFiniteAtSamples policy) equations
  let aperiodic ← aperiodicAxes policy equations
  let curve? := geometryCurve? policy equations infinite
  let geometry ← match curve? with
    | some c => geometryEvents policy c
    | none => .ok []
  return {
    events := sourceEvents sources ++
      infinite.map (fun axis => .failed (.onAxis .sampleValues axis)) ++
      aperiodic.map (fun axis => .failed (.onAxis .periodicity axis)) ++ geometry
    parsedAxes := equations.map (·.1)
    geometryChecked := curve?.isSome }

/-- Whether a failure counts as a warning under a policy. -/
def isDemoted (policy : ValidationPolicy) (f : Failure) : Bool :=
  f.check.kind == .geometry && !policy.strictGeometry.truthy

/-- The verdict on some failures. -/
def verdictOn (policy : ValidationPolicy) (failures : List Failure) (metadata : Fields) : Verdict :=
  { diagnostics := (failures.filter fun f => !isDemoted policy f).map Failure.finding
    warnings := (failures.filter (isDemoted policy)).map Failure.finding
    metadata }

/-- The verdict of a run. -/
def Run.verdict (r : Run) (policy : ValidationPolicy) : Verdict :=
  verdictOn policy (Event.failures r.events)
    [("parsed_axes", .list (r.parsedAxes.map fun axis => .text axis.name)),
      ("geometry_checked", .bool r.geometryChecked), ("strict_geometry", policy.strictGeometry)]

end Validation

/-- The verdict on three sources under a policy. -/
def validate (sources : Triple Value) (policy : ValidationPolicy) : Except Fault Verdict :=
  (Validation.run sources policy).map fun r => r.verdict policy

/-- The verdict on the points of a curve alone. -/
def checkGeometry (c : Curve) (policy : ValidationPolicy) : Except Fault Verdict :=
  (Validation.geometryEvents policy c).map fun events =>
    Validation.verdictOn policy (Event.failures events)
      [("geometry_checked", .bool true), ("strict_geometry", policy.strictGeometry)]

end SpaceCurve
