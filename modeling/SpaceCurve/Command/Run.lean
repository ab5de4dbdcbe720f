import SpaceCurve.Command.Log
import SpaceCurve.Command.Options
import SpaceCurve.Policy.File
import SpaceCurve.Preset

/-!
# Running a command line

`runLine` turns the arguments of the program into what it writes and the status it ends with. The
flags take effect in the order in which they are given, so that the first request for help, or the
first value that cannot be read, decides; only then do missing and superfluous arguments count.
-/

set_option autoImplicit false

namespace SpaceCurve
namespace Command

/-- What a run of the program leaves behind. A run has exited when the arguments alone decided. -/
structure Outcome where
  code : Nat
  exited : Bool
  stdout : String
  stderr : String
  deriving DecidableEq, Repr

/-- Why a run is cut off without an outcome. -/
inductive RunFault where
  | policyFile (cause : PolicyFileFault)
  | check (cause : Fault)
  | definition (cause : DefinitionError)

variable [Machine]

/-- Lines of output. -/
def linesText (lines : List String) : String := String.join (lines.map fun l => l ++ "\n")

/-- Help is shown. -/
def showHelp (c? : Option Command) : Outcome := ⟨0, true, Machine.help (title c?), ""⟩

/-- The arguments are refused. -/
def refuse (c? : Option Command) (e : ArgumentError) : Outcome :=
  ⟨2, true, "", Machine.usage (title c?) ++ linesText [title c? ++ ": error: " ++ e.message]⟩

/-- A run that ends with an error of its own. -/
def failWith (code : Nat) (log : List String) (message : String) : Outcome :=
  ⟨code, false, "", linesText (log ++ ["Error: " ++ message])⟩

/-! ## What the arguments say -/

/-- Whether a flag is given. -/
def hasFlag (f : Flag) (uses : List ArgumentUse) : Bool :=
  uses.any fun u =>
    match u with
    | .flag g _ => g == f
    | .word _ _ => false

/-- The values of a flag, in order. -/
def valuesOf (f : Flag) (uses : List ArgumentUse) : List String :=
  uses.filterMap fun u =>
    match u with
    | .flag g value => if g == f then value else none
    | .word _ _ => none

/-- The word at a place. -/
def wordAt (place : String) (uses : List ArgumentUse) : Value :=
  (uses.findSome? fun u =>
    match u with
    | .word p value => if p == place then some value else none
    | .flag _ _ => none).getD .null

/-- The outcome that one use of a flag decides, if it does. -/
def decide? (c? : Option Command) : ArgumentUse → Option Outcome
  | .flag .help _ => some (showHelp c?)
  | .flag .version _ => some ⟨0, true, linesText [program ++ " " ++ version], ""⟩
  | .flag .parameter (some s) =>
    if (Numeral.float? s).isNone then some (refuse c? (.badValue .parameter "float" s)) else none
  | .flag .segments (some s) =>
    if (Numeral.integer? s).isNone then some (refuse c? (.badValue .segments "int" s)) else none
  | _ => none

/-- The outcome that the arguments decide by themselves, if they do. -/
def Reading.decide? (r : Reading) (c? : Option Command) : Option Outcome :=
  (r.uses.findSome? (Command.decide? c?)).or
    ((r.error.map (refuse c?)).or
      (if r.missing.isEmpty then none else some (refuse c? (.missing r.missing))))

/-! ## The commands -/

/-- The policy in a file, or the default one; a bad file ends the run. -/
def policyFor (read : String → Option ByteArray) (path : Option String) :
    Except RunFault (Except Outcome ValidationPolicy) :=
  match path.filter fun p => !p.isEmpty with
  | none => .ok (.ok ValidationPolicy.default)
  | some p =>
    match PolicyFile.load read p with
    | .ok policy => .ok (.ok policy)
    | .error fault =>
      match fault.report? with
      | some message => .ok (.error (failWith 2 [] message))
      | none => .error (.policyFile fault)

/-- The verdict in lines of text. -/
def verdictLines (v : Verdict) : List String :=
  ("Status: " ++ v.status) :: v.diagnostics.map (fun f => "  error: " ++ f.message.shown) ++
    v.warnings.map fun f => "  warning: " ++ f.message.shown

/-- Three equations are validated. -/
def runValidate (read : String → Option ByteArray) (verbose : Bool) (uses : List ArgumentUse) :
    Except RunFault Outcome := do
  match ← policyFor read (valuesOf .policy uses).getLast? with
  | .error outcome => return outcome
  | .ok policy =>
    let policy := if hasFlag .lenient uses then { policy with strictGeometry := .bool false }
      else policy
    let sources : Triple Value := ⟨wordAt "x" uses, wordAt "y" uses, wordAt "z" uses⟩
    let r ← (Validation.run sources policy).mapError .check
    let v := r.verdict policy
    let lines := if hasFlag .json uses then [v.toJson (some "  ")] else verdictLines v
    return ⟨if v.isValid then 0 else 1, false, linesText lines, Log.ofRun verbose r.events v⟩

/-- The values of an equation at some parameters, a line for each. -/
def valueLines (e : Equation) : List Float → Except EvaluationError (List String)
  | [] => .ok []
  | t :: rest =>
    (e.evaluate (.real t)).bind fun x =>
      (valueLines e rest).map fun lines =>
        ("t=" ++ Shortest.text t ++ ": " ++ Shortest.text x) :: lines

/-- The parameters that are asked for. -/
def parametersOf (uses : List ArgumentUse) : List Float :=
  match (valuesOf .parameter uses).filterMap Numeral.float? with
  | [] => [0.0]
  | ts => ts

/-- One equation is evaluated. -/
def runEvaluate (verbose : Bool) (uses : List ArgumentUse) : Except RunFault Outcome := do
  let source := wordAt "expression" uses
  match Equation.parse source with
  | .error e => return failWith 1 (if verbose then [Log.rejected source e] else []) e.message
  | .ok e =>
    let lines ← (valueLines e (parametersOf uses)).mapError fun cause =>
      .check (.evaluation cause)
    let tree := if hasFlag .tree uses then (e.root.document?.map (Json.render (some "  "))).toList
      else []
    return ⟨0, false, linesText (tree ++ lines), ""⟩

/-- The lines about a preset. -/
def presetLines (p : Preset) : List String :=
  (p.name ++ if p.closed then "" else " (open)") ::
    Axis.all.map fun axis => "  " ++ axis.name ++ " = " ++ p.equations.get axis

/-- The presets are listed. -/
def runPresets : Outcome := ⟨0, false, linesText (Preset.all.flatMap presetLines), ""⟩

/-- The number of segments that is asked for. -/
def segmentsOf (uses : List ArgumentUse) : Value :=
  match (valuesOf .segments uses).getLast?.bind Numeral.integer? with
  | some n => .int n
  | none => SamplingPolicy.default.segments

/-- Whether a number of segments is too small. -/
def isTooFew : Value → Bool
  | .int n => n < 1
  | _ => false

/-- A name and the points under it, as JSON. -/
def pointsText (name : Value) (points : Grid Float) : String :=
  Json.render none (.record [("name", name), ("points", (points.map Value.real).toValue)])

/-- A preset is sampled. -/
def runSample (verbose : Bool) (uses : List ArgumentUse) : Except RunFault Outcome := do
  let name := wordAt "name" uses
  match Preset.find name with
  | .error (.unknown shown) => return failWith 1 [] (Preset.unknownMessage shown)
  | .error .noKey => .error (.check (.value .wrongKind))
  | .ok preset =>
    let c ← preset.curve.mapError .definition
    let segments := segmentsOf uses
    if isTooFew segments then return failWith 1 [] "--segments must be positive"
    else
      let points ← (c.sample { SamplingPolicy.default with segments }).mapError .check
      let bad := Sampling.countNonFinite points
      let log := if verbose && bad != 0 then [Log.nonFinite c.sources bad points.rows.length] else []
      return ⟨0, false, linesText [pointsText name points], linesText log⟩

/-- A command is run. -/
def runCommand (read : String → Option ByteArray) (c : Command) (verbose : Bool)
    (uses : List ArgumentUse) : Except RunFault Outcome :=
  match c with
  | .validate => runValidate read verbose uses
  | .evaluate => runEvaluate verbose uses
  | .presets => .ok runPresets
  | .sample => runSample verbose uses

/-! ## The program -/

/-- What the arguments come to: an outcome that they decide by themselves, or a command to run. -/
inductive Plan where
  | settled (outcome : Outcome)
  | command (c : Command) (verbose : Bool) (uses : List ArgumentUse)

/-- What the arguments of a command come to. `leftOver` is what was left over before it. -/
def planCommand (c : Command) (verbose : Bool) (leftOver args : List String) : Plan :=
  match classifyAll c.flags args with
  | .error e => .settled (refuse (some c) e)
  | .ok classified =>
    let r := Command.read c.flags c.words classified
    match r.decide? (some c) with
    | some outcome => .settled outcome
    | none =>
      if (leftOver ++ r.leftOver).isEmpty then .command c verbose r.uses
      else .settled (refuse none (.unrecognized (leftOver ++ r.leftOver)))

/-- What the arguments of the program come to. -/
def plan (args : List String) : Plan :=
  match classifyAll commonFlags (separate args) with
  | .error e => .settled (refuse none e)
  | .ok classified =>
    let (r, command) := readCommand commonFlags classified
    match r.decide? none, command with
    | some outcome, _ => .settled outcome
    | none, none =>
      if r.leftOver.isEmpty then .settled ⟨1, false, Machine.help (title none), ""⟩
      else .settled (refuse none (.unrecognized r.leftOver))
    | none, some (word, rest) =>
      match ofName? word with
      | none => .settled (refuse none (.unknownCommand word))
      | some c => planCommand c (hasFlag .verbose r.uses) r.leftOver rest

/-- The path of the policy file that the arguments name, if any. -/
def policyPath? (args : List String) : Option String :=
  match plan args with
  | .command .validate _ uses => (valuesOf .policy uses).getLast?
  | _ => none

/-- The program is run on its arguments. -/
def runLine (read : String → Option ByteArray) (args : List String) : Except RunFault Outcome :=
  match plan args with
  | .settled outcome => .ok outcome
  | .command c verbose uses => runCommand read c verbose uses

end Command
end SpaceCurve
