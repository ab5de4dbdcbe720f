import SpaceCurve.Curve

/-!
# Checks

The seven checks that a curve goes through, in the order of their stages. A check has a name, the
kind of its findings, and a text for each outcome. The first five look at one axis at a time, the
last two at the points of the whole curve.
-/

set_option autoImplicit false

namespace SpaceCurve

/-- What a finding is about: the text of an equation, its values, or the shape of the curve. -/
inductive FindingKind where
  | grammar
  | evaluation
  | geometry
  deriving DecidableEq, Repr

namespace FindingKind

/-- All kinds. -/
def all : List FindingKind := [.grammar, .evaluation, .geometry]

/-- The name of the kind. -/
def name : FindingKind → String
  | .grammar => "syntax"
  | .evaluation => "evaluation"
  | .geometry => "geometry"

/-- The kind with a name. -/
def ofName? (name : String) : Option FindingKind := all.find? fun k => k.name == name

end FindingKind

/-- The checks in the order of their stages. -/
inductive Check where
  | empty
  | parentheses
  | grammar
  | sampleValues
  | periodicity
  | degenerate
  | magnitude
  deriving DecidableEq, Repr

namespace Check

/-- The name of the check. -/
def name : Check → String
  | empty => "empty"
  | parentheses => "parentheses"
  | grammar => "syntax"
  | sampleValues => "sample_values"
  | periodicity => "periodicity"
  | degenerate => "degenerate"
  | magnitude => "magnitude"

/-- The stage in which the check runs. -/
def stage : Check → Nat
  | empty => 0
  | parentheses => 1
  | grammar => 2
  | sampleValues => 3
  | periodicity => 4
  | degenerate => 5
  | magnitude => 6

/-- The kind of the check's findings. -/
def kind : Check → FindingKind
  | empty => .grammar
  | parentheses => .grammar
  | grammar => .grammar
  | sampleValues => .evaluation
  | periodicity => .geometry
  | degenerate => .geometry
  | magnitude => .geometry

/-- What is said when the check passes. -/
def passedText : Check → String
  | empty => "Equation is present"
  | parentheses => "Parentheses balanced"
  | grammar => "Equation parsed"
  | sampleValues => "Sample values finite"
  | periodicity => "Equation is periodic"
  | degenerate => "Curve is not degenerate"
  | magnitude => "Coordinates within bounds"

/-- What is said when the check fails. -/
def failedText : Check → String
  | empty => "equation cannot be empty"
  | parentheses => "equation has unbalanced parentheses"
  | grammar => "equation has invalid syntax"
  | sampleValues => "equation produces invalid values"
  | periodicity => "equation may not be periodic (curve might not close)"
  | degenerate => "Equations produce a degenerate curve (all points are the same)"
  | magnitude => "Equations produce extremely large values that may cause rendering issues"

/-- What is said when an equation does not parse. -/
def grammarText (e : SyntaxError) : String := failedText .grammar ++ ": " ++ e.message

/-- The report of a check: its outcome in a word and in text, and the figures behind it. -/
def report (passed : Bool) (text : String) (details : Fields) : Fields :=
  [("passed", .bool passed), ("message", .text text), ("details", .record details)]

/-- The report of a check whose text depends on nothing but the outcome. -/
def reportOf (check : Check) (passed : Bool) (details : Fields) : Fields :=
  report passed (if passed then check.passedText else check.failedText) details

end Check
end SpaceCurve
