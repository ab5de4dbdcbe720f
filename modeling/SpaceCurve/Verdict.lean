import SpaceCurve.Check
import SpaceCurve.Json.Writer

/-!
# Verdicts

A finding says what is wrong with one axis or with the whole curve. A verdict collects findings: a
curve is valid when there are no diagnostics, whatever warnings there are. Notes on how the verdict
came about do not count when two verdicts are compared.
-/

set_option autoImplicit false

namespace SpaceCurve

/-! ## Findings -/

/-- One thing that is wrong with a curve. Validation stores texts and leaves the axis out where a
finding is about the whole curve; a finding of one's own may hold anything, as long as it has a
kind. -/
structure Finding where
  message : Value
  axis : Value
  kind : FindingKind
  check : Value

/-- Why a record describes no finding. -/
inductive FindingFault where
  /-- The message is missing, or a field has an unknown name. -/
  | wrongFields
  /-- No kind of findings has the name; this is how messages show it. -/
  | unknownKind (shown : String)
  deriving DecidableEq, Repr

namespace Finding

/-- The message about a name that no kind of findings has. -/
def unknownKindMessage (shown : String) : String := "Unknown diagnostic kind: " ++ shown

/-- The names of the fields. -/
def names : List String := ["message", "axis", "kind", "check"]

/-- The kind of findings that a value names. -/
def kindOf : Value → Except FindingFault FindingKind
  | .text s =>
    match FindingKind.ofName? s with
    | some k => .ok k
    | none => .error (.unknownKind s)
  | v => .error (.unknownKind v.shown)

/-- The finding that a record describes. All but the message may be left out. -/
def ofFields (fields : Fields) : Except FindingFault Finding :=
  match fields.get? "message" with
  | none => .error .wrongFields
  | some message =>
    if fields.all fun f => names.contains f.1 then
      (kindOf ((fields.get? "kind").getD (.text FindingKind.grammar.name))).map fun kind =>
        ⟨message, (fields.get? "axis").getD .null, kind, (fields.get? "check").getD (.text "")⟩
    else .error .wrongFields

/-- The finding as a record. -/
def toFields (f : Finding) : Fields :=
  [("message", f.message), ("axis", f.axis), ("kind", .text f.kind.name), ("check", f.check)]

/-- Whether two findings are equal in all fields. -/
def equals (f g : Finding) : Bool := Fields.equals f.toFields g.toFields

end Finding

/-! ## Verdicts -/

/-- The outcome of validating a curve. -/
structure Verdict where
  diagnostics : List Finding
  warnings : List Finding
  metadata : Fields

namespace Verdict

/-- Whether the curve is valid. -/
def isValid (v : Verdict) : Bool := v.diagnostics.isEmpty

/-- The messages of all diagnostics. -/
def errors (v : Verdict) : List Value := v.diagnostics.map Finding.message

/-- The verdict in a word. -/
def status (v : Verdict) : String :=
  if !v.diagnostics.isEmpty then "fail"
  else if !v.warnings.isEmpty then "warnings"
  else "ok"

/-- The messages of the diagnostics about one axis, or about none. -/
def messagesFor (v : Verdict) (axis : Value) : List Value :=
  (v.diagnostics.filter fun f => f.axis.equals axis).map Finding.message

/-- Whether two lists hold equal findings in the same order. -/
def equalFindings : List Finding → List Finding → Bool
  | [], [] => true
  | f :: fs, g :: gs => f.equals g && equalFindings fs gs
  | _, _ => false

/-- Whether two verdicts have equal findings. -/
def equals (v w : Verdict) : Bool :=
  equalFindings v.diagnostics w.diagnostics && equalFindings v.warnings w.warnings

/-- The verdict as a record. -/
def toFields (v : Verdict) : Fields :=
  [("is_valid", .bool v.isValid), ("status", .text v.status),
    ("diagnostics", .list (v.diagnostics.map fun f => .record f.toFields)),
    ("warnings", .list (v.warnings.map fun f => .record f.toFields)),
    ("metadata", .record v.metadata)]

/-- The verdict as JSON text. -/
def toJson (v : Verdict) (indent : Option String) : String := Json.render indent (.record v.toFields)

end Verdict
end SpaceCurve
