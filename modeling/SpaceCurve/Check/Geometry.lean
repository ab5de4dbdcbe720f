import SpaceCurve.Check
import SpaceCurve.Fault
import SpaceCurve.Operand

/-!
# Checks on the points of a curve

The points of a curve must not all lie close to the first one, and no coordinate may be larger than
a bound. A threshold may be a number for all coordinates or a grid of numbers for single ones;
comparisons with what is not a number are false.

The points are a grid. Its first axis counts the points, its second one the coordinates.
-/

set_option autoImplicit false

namespace SpaceCurve

/-! ## Degeneracy -/

/-- How far the points of a curve are from the first one. -/
structure Spread where
  maxOffset : Float
  count : Nat
  tolerance : Value
  degenerate : Bool

namespace Spread

/-- The distances of a point to the first one, coordinate by coordinate. -/
def offsets (first point : List Float) : List Float :=
  List.zipWith (fun a b => (a - b).abs) point first

/-- The distances of all points to the first one. -/
def distances (points : Grid Float) (first : List Float) : Grid Float :=
  ⟨points.shape, points.rows.flatMap (offsets first)⟩

/-- Whether the difference of two finite numbers is not finite. -/
def exceeds (a b : Float) : Bool := a.isFinite && b.isFinite && (a - b).isInf

/-- Whether some point is too far from the first one for a float. -/
def overflows (points : Grid Float) : Bool :=
  match points.rows with
  | [] => false
  | first :: _ => points.rows.any fun point => (List.zipWith exceeds point first).any id

/-- The largest of some sizes, leaving out what is not a number. -/
def largest (xs : List Float) : Float :=
  match xs.filter fun x => !x.isNaN with
  | [] => 0.0 / 0.0
  | x :: rest => rest.foldl (fun m y => if m < y then y else m) x

/-- Whether each distance is below its tolerance. -/
def closeness (distances : Grid Float) (tolerance : Value) : Except ValueFault (Grid Bool) :=
  (Operand.ofValue tolerance).bind fun o => o.relate Value.Number.lt distances

/-- The spread of some points. -/
def of (points : Grid Float) (tolerance : Value) : Except Fault Spread :=
  match points.rows with
  | [] => .error .noPoints
  | first :: others =>
    let distances := distances points first
    ((closeness distances tolerance).mapError .value).map fun close =>
      { maxOffset := largest distances.entries
        count := others.length + 1
        tolerance
        degenerate := close.entries.all id }

/-- The report on the degeneracy of a curve. -/
def report (s : Spread) : Fields :=
  Check.reportOf .degenerate (!s.degenerate)
    [("max_offset", .real s.maxOffset), ("tolerance", s.tolerance), ("num_points", .int s.count)]

end Spread

/-! ## Magnitude -/

/-- How many points have a coordinate beyond the bounds. -/
structure Magnitude where
  outOfBounds : Nat
  bound : Value

namespace Magnitude

/-- Whether each coordinate is beyond its bound. -/
def excess (points : Grid Float) (bound : Value) : Except ValueFault (Grid Bool) :=
  (Operand.ofValue bound).bind fun o =>
    o.relate (fun size limit => limit.lt size) (points.map Float.abs)

/-- The points beyond the bounds, counted. -/
def of (points : Grid Float) (bound : Value) : Except ValueFault Magnitude :=
  (excess points bound).map fun large => ⟨large.anyOnSecond.count true, bound⟩

/-- Whether no point is beyond the bounds. -/
def passed (m : Magnitude) : Bool := m.outOfBounds == 0

/-- The report on the magnitude of a curve. -/
def report (m : Magnitude) : Fields :=
  Check.reportOf .magnitude m.passed
    [("points_out_of_bounds", .int m.outOfBounds), ("max_magnitude", m.bound)]

end Magnitude
end SpaceCurve
