import SpaceCurve.Equation

/-!
# Curves

A curve in space is given by three equations, one for each axis. `Curve.parse` reads them in the
order x, y, z and fails with the first axis whose equation is no equation.
-/

set_option autoImplicit false

namespace SpaceCurve

/-- The axes of space. -/
inductive Axis where
  | x | y | z
  deriving DecidableEq, Repr

namespace Axis

/-- The axes in order. -/
def all : List Axis := [.x, .y, .z]

/-- The name of the axis. -/
def name : Axis → String
  | .x => "x"
  | .y => "y"
  | .z => "z"

/-- The name of the axis at the start of a message. -/
def capital : Axis → String
  | .x => "X"
  | .y => "Y"
  | .z => "Z"

end Axis

/-- One thing for each axis. -/
structure Triple (α : Type) where
  x : α
  y : α
  z : α
  deriving DecidableEq, Repr

namespace Triple

variable {α β : Type}

/-- The thing on an axis. -/
def get (t : Triple α) : Axis → α
  | .x => t.x
  | .y => t.y
  | .z => t.z

/-- The three things in the order of the axes. -/
def toList (t : Triple α) : List α := [t.x, t.y, t.z]

/-- A function applied on each axis. -/
def map (f : α → β) (t : Triple α) : Triple β := ⟨f t.x, f t.y, f t.z⟩

end Triple

/-- The axis whose equation is wrong, and what is wrong with it. -/
structure DefinitionError where
  axis : Axis
  cause : SyntaxError
  deriving DecidableEq, Repr

/-- The error in words. -/
def DefinitionError.message (e : DefinitionError) : String :=
  e.axis.capital ++ " equation: " ++ e.cause.message

/-- A curve in space. -/
abbrev Curve := Triple Equation

namespace Curve

/-- The equation that stands for one axis. -/
def parseAxis (sources : Triple Value) (axis : Axis) : Except DefinitionError Equation :=
  (Equation.parse (sources.get axis)).mapError fun e => ⟨axis, e⟩

/-- The curve of three equations, or the first axis whose equation is wrong. -/
def parse (sources : Triple Value) : Except DefinitionError Curve :=
  (parseAxis sources .x).bind fun x =>
    (parseAxis sources .y).bind fun y =>
      (parseAxis sources .z).map fun z => ⟨x, y, z⟩

/-- The texts of the equations. -/
def sources (c : Curve) : Triple String := c.map Equation.source

/-- The texts of the equations under the names of their axes. -/
def toFields (c : Curve) : Fields :=
  Axis.all.map fun axis => (axis.name, .text (c.get axis).source)

/-- The point of the curve at a parameter of any kind. -/
def pointAt (c : Curve) (t : Value) : Except EvaluationError (Triple Float) :=
  (c.x.evaluate t).bind fun x =>
    (c.y.evaluate t).bind fun y => (c.z.evaluate t).map fun z => ⟨x, y, z⟩

end Curve
end SpaceCurve
