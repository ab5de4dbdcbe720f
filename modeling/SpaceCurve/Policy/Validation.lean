import SpaceCurve.Policy.Settings

/-!
# The policy for validation

Which of the optional checks run, with which thresholds, and whether findings about the geometry
of a curve make it invalid. A policy is mutable data: a setting may be of any kind until it is
used, and `problems` says which are out of range.
-/

set_option autoImplicit false

namespace SpaceCurve

/-- How a curve is validated. -/
structure ValidationPolicy where
  samplePoints : Value
  period : Value
  checkPeriodicity : Value
  periodicityTolerance : Value
  checkGeometry : Value
  geometrySamples : Value
  degeneracyTolerance : Value
  maxMagnitude : Value
  strictGeometry : Value

namespace ValidationPolicy

/-- The parameters at which an equation must be finite: the quarters of a turn. -/
def defaultSamplePoints : List Float :=
  [0.0, Binary64.pi / 2.0, Binary64.pi, 3.0 * Binary64.pi / 2.0]

/-- All checks, over one turn; findings about the geometry make a curve invalid. -/
def default : ValidationPolicy where
  samplePoints := .tuple (defaultSamplePoints.map .real)
  period := .real Binary64.tau
  checkPeriodicity := .bool true
  periodicityTolerance := .real 0.01
  checkGeometry := .bool true
  geometrySamples := .int 10
  degeneracyTolerance := .real 0.001
  maxMagnitude := .real 1000.0
  strictGeometry := .bool true

/-- The default policy, under which findings about the geometry are warnings. -/
def lenient : ValidationPolicy := { default with strictGeometry := .bool false }

/-- The settings under their names. -/
def toFields (p : ValidationPolicy) : Fields :=
  [("sample_points", p.samplePoints), ("period", p.period),
    ("check_periodicity", p.checkPeriodicity),
    ("periodicity_tolerance", p.periodicityTolerance), ("check_geometry", p.checkGeometry),
    ("geometry_samples", p.geometrySamples), ("degeneracy_tolerance", p.degeneracyTolerance),
    ("max_magnitude", p.maxMagnitude), ("strict_geometry", p.strictGeometry)]

/-- The names of the settings. -/
def names : List String := default.toFields.map (·.1)

/-- The older names that are still understood. -/
def aliases : List Settings.Alias :=
  [⟨"tolerance", "periodicity_tolerance"⟩, ⟨"max_value", "max_magnitude"⟩,
    ⟨"strict", "strict_geometry"⟩]

/-- The policy with one setting stored as it is; a name that is unknown changes nothing. -/
def set (p : ValidationPolicy) (name : String) (value : Value) : ValidationPolicy :=
  match name with
  | "sample_points" => { p with samplePoints := value }
  | "period" => { p with period := value }
  | "check_periodicity" => { p with checkPeriodicity := value }
  | "periodicity_tolerance" => { p with periodicityTolerance := value }
  | "check_geometry" => { p with checkGeometry := value }
  | "geometry_samples" => { p with geometrySamples := value }
  | "degeneracy_tolerance" => { p with degeneracyTolerance := value }
  | "max_magnitude" => { p with maxMagnitude := value }
  | "strict_geometry" => { p with strictGeometry := value }
  | _ => p

/-- The policy of settings that are taken as they are; all names must be known. -/
def ofFields (fields : Fields) : Except ValueFault ValidationPolicy :=
  if fields.all fun f => names.contains f.1 then
    .ok (fields.foldl (fun p f => p.set f.1 f.2) default)
  else .error .wrongKind

/-- The settings that must be positive. -/
def positiveNames : List String :=
  ["period", "periodicity_tolerance", "geometry_samples", "degeneracy_tolerance", "max_magnitude"]

/-- What is out of range. -/
def problems (p : ValidationPolicy) : Except ValueFault (List Problem) :=
  (Settings.problems p.toFields positiveNames).map fun ps =>
    if p.samplePoints.truthy then ps else ps ++ [.empty "sample_points"]

/-- The settings as a record can hold them: the sample points become a list. The values are taken
over whole; however deeply they are nested, there is room to do so. -/
def toSettings (p : ValidationPolicy) : Except ValueFault Fields :=
  p.samplePoints.elements.map fun points => p.toFields.set "sample_points" (.list points)

/-- The floats that some values stand for; what is none counts as zero. -/
def coercePoints : List Value → Except ValueFault (List Value)
  | [] => .ok []
  | v :: rest =>
    (v.coerceFloat (.real 0.0)).bind fun x => (coercePoints rest).map fun xs => x :: xs

/-- The elements of a value, each converted to a float. -/
def convertPoints (v : Value) : Except ValueFault Value :=
  v.elements.bind fun points => (coercePoints points).map .tuple

/-- The settings, converted to what they stand for. -/
def convert (fields : Fields) : Except ValueFault ValidationPolicy := do
  let samplePoints ← Settings.convert fields "sample_points" default.samplePoints convertPoints
  let float (name : String) (whenMissing : Value) : Except ValueFault Value :=
    Settings.convert fields name whenMissing fun v => v.coerceFloat whenMissing
  let period ← float "period" default.period
  let periodicityTolerance ← float "periodicity_tolerance" default.periodicityTolerance
  let degeneracyTolerance ← float "degeneracy_tolerance" default.degeneracyTolerance
  let maxMagnitude ← float "max_magnitude" default.maxMagnitude
  let geometrySamples ← Settings.convert fields "geometry_samples" default.geometrySamples fun v =>
    v.coerceInt default.geometrySamples
  let stored (name : String) (whenMissing : Value) : Value :=
    (fields.get? name).getD whenMissing
  return {
    samplePoints, period, periodicityTolerance, degeneracyTolerance, maxMagnitude,
    geometrySamples
    checkPeriodicity := stored "check_periodicity" default.checkPeriodicity
    checkGeometry := stored "check_geometry" default.checkGeometry
    strictGeometry := stored "strict_geometry" default.strictGeometry }

/-- The policy that loosely written settings describe. -/
def ofSettings (fields : Fields) : Except PolicyFault ValidationPolicy := do
  let p ← (convert (Settings.keep names (Settings.renameAll aliases fields))).mapError .value
  match ← p.problems.mapError .value with
  | [] => return p
  | problems => .error (.invalid "validation" problems)

/-- The policy read back from its own settings. -/
def reread (p : ValidationPolicy) : Except PolicyFault ValidationPolicy :=
  (p.toSettings.mapError .value).bind ofSettings

/-- Whether two policies agree in all settings. -/
def same (p q : ValidationPolicy) : Bool := p.toFields.same q.toFields

end ValidationPolicy
end SpaceCurve
