import SpaceCurve.Equation.Parser
import SpaceCurve.Equation.Program
import SpaceCurve.Grid

/-!
# Equations

An equation is a text together with its tree. `Equation.parse` reads one from a value of any kind;
`Equation.evaluate` gives its value at a parameter of any kind, or says why there is none, and
`Equation.evaluateGrid` its values at all entries of a grid.
-/

set_option autoImplicit false

namespace SpaceCurve

/-- Why an evaluation has no result. -/
inductive EvaluationError where
  /-- Something other than an equation was to be evaluated. -/
  | notEquation (kind : String)
  /-- The parameter is no real number. -/
  | notReal (kind : String)
  /-- The parameter is an integer beyond the range of floats. -/
  | outOfRange
  /-- The tree names something that is not in the lexicon. -/
  | unresolved (fault : ResolveFault)
  /-- A function is called with a wrong number of arguments. -/
  | wrongCount
  deriving DecidableEq, Repr

namespace EvaluationError

/-- The error in words. -/
def message : EvaluationError → String
  | notEquation kind => "evaluate() requires a parsed Expression, got " ++ kind
  | notReal kind => "parameter t must be a real number, got " ++ kind
  | outOfRange => "parameter t is out of float range: int too large to convert to float"
  | unresolved fault => fault.message
  | wrongCount => "wrong number of arguments"

end EvaluationError

/-- The parameter that a value stands for: an integer or a float, and no truth value. -/
def parameterOf : Value → Except EvaluationError Float
  | .int i =>
    match Binary64.ofInt? i with
    | some t => .ok t
    | none => .error .outOfRange
  | .real t => .ok t
  | v => .error (.notReal v.kind)

/-- The value of a program at a parameter of any kind. -/
def Program.evaluate (p : Program) (t : Value) : Except EvaluationError Float :=
  (parameterOf t).bind fun x =>
    match p.eval? true x with
    | some y => .ok y
    | none => .error .wrongCount

/-- A text and its tree. -/
structure Equation where
  source : String
  root : Tree
  deriving Inhabited

namespace Equation

/-- The equation that a value holds as text. -/
def parse : Value → Except SyntaxError Equation
  | .text s => (parseText s.toList).map fun root => ⟨s, root⟩
  | v => .error (SyntaxError.overall (.notText v.kind))

/-- The program of the equation's tree. -/
def program (e : Equation) : Except EvaluationError Program :=
  e.root.resolve.mapError .unresolved

/-- The value of the equation at a parameter of any kind. -/
def evaluate (e : Equation) (t : Value) : Except EvaluationError Float :=
  e.program.bind fun p => p.evaluate t

/-- The values of the equation at the entries of a grid, which are many parameters unless the grid
has no axes. -/
def evaluateGrid (e : Equation) (ts : Grid Float) : Except EvaluationError (Grid Float) :=
  e.program.bind fun p =>
    ts.convert fun t =>
      match p.eval? ts.shape.isEmpty t with
      | some y => .ok y
      | none => .error .wrongCount

end Equation
end SpaceCurve
