import SpaceCurve.Curve

/-!
# Preset curves

Five knots and three curves for the equation editor, each under a name that looks it up. Not all
of them are closed: the spiral and the helix end where they did not begin.
-/

set_option autoImplicit false

namespace SpaceCurve

/-- The knots among the presets. -/
inductive Knot where
  | trefoil | figureEight | cinquefoil | hopfLink | torusKnot
  deriving DecidableEq, Repr

namespace Knot

/-- All knots in order. -/
def all : List Knot := [.trefoil, .figureEight, .cinquefoil, .hopfLink, .torusKnot]

/-- The name that looks the knot up. -/
def name : Knot → String
  | .trefoil => "trefoil"
  | .figureEight => "figure-eight"
  | .cinquefoil => "cinquefoil"
  | .hopfLink => "hopf-link"
  | .torusKnot => "torus-knot"

/-- The name of the knot as a constant. -/
def constantName : Knot → String
  | .trefoil => "TREFOIL"
  | .figureEight => "FIGURE_EIGHT"
  | .cinquefoil => "CINQUEFOIL"
  | .hopfLink => "HOPF_LINK"
  | .torusKnot => "TORUS_KNOT"

end Knot

/-- A named curve. -/
structure Preset where
  name : String
  displayName : String
  equations : Triple String
  closed : Bool
  deriving DecidableEq, Repr

namespace Preset

/-- The preset of a knot. -/
def ofKnot : Knot → Preset
  | .trefoil =>
    { name := Knot.name .trefoil
      displayName := "Trefoil Knot"
      equations := ⟨"sin(t) + 2*sin(2*t)", "cos(t) - 2*cos(2*t)", "-sin(3*t)"⟩
      closed := true }
  | .figureEight =>
    { name := Knot.name .figureEight
      displayName := "Figure-Eight Knot"
      equations := ⟨"(2 + cos(2*t)) * cos(3*t)", "(2 + cos(2*t)) * sin(3*t)", "sin(4*t)"⟩
      closed := true }
  | .cinquefoil =>
    { name := Knot.name .cinquefoil
      displayName := "Cinquefoil Knot"
      equations := ⟨"cos(2*t) * (3 + cos(5*t))", "sin(2*t) * (3 + cos(5*t))", "sin(5*t)"⟩
      closed := true }
  | .hopfLink =>
    { name := Knot.name .hopfLink
      displayName := "Hopf Link"
      equations := ⟨"cos(t) * (2 + cos(2*t))", "sin(t) * (2 + cos(2*t))", "sin(2*t)"⟩
      closed := true }
  | .torusKnot =>
    { name := Knot.name .torusKnot
      displayName := "Torus Knot (2,7)"
      equations := ⟨"cos(2*t) * (3 + cos(7*t))", "sin(2*t) * (3 + cos(7*t))", "sin(7*t)"⟩
      closed := true }

/-- The presets that are no knots. -/
def custom : List Preset :=
  [{ name := "spiral", displayName := "Spiral", equations := ⟨"t * cos(t)", "t * sin(t)", "t"⟩,
     closed := false },
   { name := "helix", displayName := "Helix", equations := ⟨"cos(t)", "sin(t)", "t / 3"⟩,
     closed := false },
   { name := "lissajous", displayName := "Lissajous",
     equations := ⟨"sin(3*t)", "sin(2*t)", "sin(5*t)"⟩, closed := true }]

/-- All presets in order. -/
def all : List Preset := Knot.all.map ofKnot ++ custom

/-- The names of all presets. -/
def names : List String := all.map Preset.name

/-- Why a preset is not found. -/
inductive LookupFault where
  /-- Nothing can be looked up under a value of this kind. -/
  | noKey
  /-- No preset has the name; this is how messages show it. -/
  | unknown (shown : String)
  deriving DecidableEq, Repr

/-- The message about a name that no preset has. -/
def unknownMessage (shown : String) : String :=
  "Unknown preset '" ++ shown ++ "', choose from: " ++ String.intercalate ", " names

/-- The preset under a name, which may be a value of any kind. -/
def find (name : Value) : Except LookupFault Preset :=
  match name with
  | .text s =>
    match all.find? fun p => p.name == s with
    | some p => .ok p
    | none => .error (.unknown s)
  | v => if v.isKey then .error (.unknown v.shown) else .error .noKey

/-- The equations of the preset as values. -/
def sources (p : Preset) : Triple Value := p.equations.map .text

/-- The preset's curve. -/
def curve (p : Preset) : Except DefinitionError Curve := Curve.parse p.sources

/-- The preset as a record. -/
def toFields (p : Preset) : Fields :=
  [("name", .text p.name), ("display_name", .text p.displayName),
    ("equations", .record (Axis.all.map fun axis => (axis.name, .text (p.equations.get axis)))),
    ("closed", .bool p.closed)]

end Preset
end SpaceCurve
