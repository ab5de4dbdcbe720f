import SpaceCurve.Curve
import SpaceCurve.Fault
import SpaceCurve.Machine
import SpaceCurve.Operand
import SpaceCurve.Policy.Sampling

/-!
# Sampling

A period is cut into equal segments: `parameters` is the grid of the parameter values, which start
at zero and contain the end of the period only on request. `Curve.sample` is the grid of the
points there, those without a finite value included.

A period may itself be a grid of lengths. They are cut side by side, and the points then have
further axes.
-/

set_option autoImplicit false

namespace SpaceCurve

variable [Machine]

namespace Sampling

/-- The number of parameter values: an integer that is not negative. -/
def count : Value → Except ValueFault Nat
  | .bool b => .ok (if b then 1 else 0)
  | .int i => if i < 0 then .error .unreadable else .ok i.toNat
  | _ => .error .wrongKind

/-! ## Periods -/

/-- A period: its lengths, and its end as it was written. -/
structure Period where
  lengths : Grid Float
  written : Grid Value

namespace Period

/-- The length that one entry of a mixed period stands for; text stands for none. -/
def lengthOf : Value → Except ValueFault Float
  | .text _ => .error .wrongKind
  | v => v.toFloat

/-- The period of an operand. Where the entries count for themselves, the end is kept as it was
written. -/
def ofOperand : Operand → Except ValueFault Period
  | .numbers g => .ok ⟨g, g.map .real⟩
  | .mixed g => (g.convert lengthOf).map fun lengths => ⟨lengths, g⟩

/-- The period that a value stands for. -/
def ofValue : Value → Except ValueFault Period
  | .int i => if Operand.isWord i then (Operand.ofValue (.int i)).bind ofOperand else .error .unfit
  | v => (Operand.ofValue v).bind ofOperand

/-- There must be an axis left for the parameter values. -/
def checkRank (p : Period) : Except ValueFault Unit :=
  if p.lengths.shape.length < Grid.maxRank then .ok () else .error .unreadable

end Period

/-! ## Parameter values -/

/-- The width of one of `parts` equal parts of a period. -/
def stepOf (parts : Nat) (period : Float) : Float := period / Float.ofNat parts

/-- The value after `i` of `parts` equal parts of a period. Where the parts are too small for a
float, the period is scaled instead of its part. -/
def valueAt (parts : Nat) (scaled : Bool) (i : Nat) (period : Float) : Float :=
  let x := Float.ofNat i
  if parts == 0 then x * period + 0.0
  else if scaled then x / Float.ofNat parts * period + 0.0
  else x * stepOf parts period + 0.0

/-- Whether the last of `n` parameter values is the end of the period itself. -/
def endsPeriod (n : Nat) (endpoint : Bool) : Bool := endpoint && 1 < n

/-- The `n` parameter values of a period. With the end of the period among them, they are the ends
of `n - 1` parts and the last one is the period itself. -/
def valuesOf (n : Nat) (endpoint : Bool) (lengths : Grid Float) : Grid Float :=
  let parts := if endpoint then n - 1 else n
  let scaled := lengths.entries.any fun p => stepOf parts p == 0.0
  ⟨n :: lengths.shape, (List.range n).flatMap fun i =>
    if endsPeriod n endpoint && i + 1 == n then lengths.entries
    else lengths.entries.map (valueAt parts scaled i)⟩

/-- The number of parameter values and the period, for settings of any kind. -/
def plan (segments period : Value) : Except ValueFault (Nat × Period) := do
  let n ← count segments
  let p ← Period.ofValue period
  Machine.checkRoom n
  p.checkRank
  return (n, p)

/-- The parameter values for settings of any kind. -/
def parameters (segments period endpoint : Value) : Except ValueFault (Grid Float) :=
  (plan segments period).map fun (n, p) => valuesOf n endpoint.truthy p.lengths

/-- The parameter values with the end of the period as it was written. -/
def writtenParameters (segments period endpoint : Value) : Except ValueFault (Grid Value) :=
  (plan segments period).map fun (n, p) =>
    let values := (valuesOf n endpoint.truthy p.lengths).map Value.real
    if endsPeriod n endpoint.truthy then
      ⟨values.shape, values.entries.take ((n - 1) * Grid.volume p.lengths.shape) ++
        p.written.entries⟩
    else values

/-- Whether a length of the period is infinite. The first of its parameter values is then zero
times an infinity. -/
def isEndless (period : Value) : Bool :=
  match Period.ofValue period with
  | .ok p => p.lengths.entries.any Float.isInf
  | .error _ => false

/-- The points that have no finite value on some axis, counted. -/
def countNonFinite (points : Grid Float) : Nat :=
  (points.map fun x => !x.isFinite).anyOnSecond.count true

end Sampling

namespace Curve

/-- The rows of three grids side by side: all on the first axis, all on the second, all on the
third. Single numbers become coordinates of a point. -/
def stack (x y z : Grid Float) : Grid Float :=
  let places := match x.shape.drop 1 with
    | [] => [3]
    | k :: rest => 3 * k :: rest
  ⟨x.shape.take 1 ++ places,
    (x.rows.zip (y.rows.zip z.rows)).flatMap fun (a, b, c) => a ++ b ++ c⟩

/-- The points of the curve at the rows of a grid of parameter values. -/
def pointsOn (c : Curve) (ts : Grid Float) : Except EvaluationError (Grid Float) :=
  (c.x.evaluateGrid ts).bind fun x =>
    (c.y.evaluateGrid ts).bind fun y =>
      (c.z.evaluateGrid ts).map fun z => stack x y z

/-- The points of the curve over one period. -/
def sample (c : Curve) (policy : SamplingPolicy) : Except Fault (Grid Float) := do
  if ← (policy.segments.isBelow (.whole 1)).mapError .value then
    policy.segments.checkShown.mapError .value
    .error (.tooFewSegments policy.segments.shown)
  else
    let ts ← (Sampling.parameters policy.segments policy.period policy.endpoint).mapError .value
    (c.pointsOn ts).mapError .evaluation

end Curve
end SpaceCurve
