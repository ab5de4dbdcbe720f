import SpaceCurve.Policy.Settings

/-!
# The policy for sampling

Into how many segments a period is cut, how long it is, and whether its end belongs to it.
-/

set_option autoImplicit false

namespace SpaceCurve

/-- How a curve is sampled. The settings may be of any kind until they are used. -/
structure SamplingPolicy where
  segments : Value
  period : Value
  endpoint : Value

namespace SamplingPolicy

/-- Four hundred points over one turn without its end. -/
def default : SamplingPolicy := ⟨.int 400, .real Binary64.tau, .bool false⟩

/-- The names of the settings. -/
def names : List String := ["segments", "period", "endpoint"]

/-- The settings under their names. -/
def toFields (p : SamplingPolicy) : Fields :=
  [("segments", p.segments), ("period", p.period), ("endpoint", p.endpoint)]

/-- The policy with one setting stored as it is; a name that is unknown changes nothing. -/
def set (p : SamplingPolicy) (name : String) (value : Value) : SamplingPolicy :=
  match name with
  | "segments" => { p with segments := value }
  | "period" => { p with period := value }
  | "endpoint" => { p with endpoint := value }
  | _ => p

/-- The policy of settings that are taken as they are; all names must be known. -/
def ofFields (fields : Fields) : Except ValueFault SamplingPolicy :=
  if fields.all fun f => names.contains f.1 then
    .ok (fields.foldl (fun p f => p.set f.1 f.2) default)
  else .error .wrongKind

/-- What is out of range. -/
def problems (p : SamplingPolicy) : Except ValueFault (List Problem) :=
  Settings.problems p.toFields ["segments", "period"]

/-- The settings, converted to what they stand for. -/
def convert (fields : Fields) : Except ValueFault SamplingPolicy := do
  let segments ← Settings.convert fields "segments" default.segments fun v =>
    v.coerceInt default.segments
  let period ← Settings.convert fields "period" default.period fun v =>
    v.coerceFloat default.period
  let endpoint ← Settings.convert fields "endpoint" default.endpoint .ok
  return ⟨segments, period, endpoint⟩

/-- The policy that loosely written settings describe. -/
def ofSettings (fields : Fields) : Except PolicyFault SamplingPolicy := do
  let p ← (convert (Settings.keep names fields)).mapError .value
  match ← p.problems.mapError .value with
  | [] => return p
  | problems => .error (.invalid "sampling" problems)

end SamplingPolicy
end SpaceCurve
