import SpaceCurve.Grid

/-!
# Operands

What array arithmetic makes of a value of any kind. Numbers that fit a machine become a grid of
floats. Where a missing value, a record or an integer too long for a machine word is among them, a
list is taken as it stands and each entry counts for itself, exactly. Text has no arithmetic,
unless it stands among entries that count for themselves; there it is refused when its turn comes.
-/

set_option autoImplicit false

namespace SpaceCurve

/-- A value as array arithmetic takes it. -/
inductive Operand where
  | numbers (g : Grid Float)
  | mixed (g : Grid Value)

namespace Operand

/-- Whether an integer fits a machine word, with a sign or without. -/
def isWord (i : Int) : Bool := -Nat.pow 2 63 ≤ i && i < Nat.pow 2 64

/-- Whether a value makes the entries of its list count for themselves. -/
def isSingular : Value → Bool
  | .null => true
  | .record _ => true
  | .int i => !isWord i
  | _ => false

/-- Whether a value is text. -/
def isText : Value → Bool
  | .text _ => true
  | _ => false

/-- The operand of nested lists. -/
def ofNested (v : Value) : Except ValueFault Operand :=
  match Grid.ofValue? v with
  | none => .error .unreadable
  | some g =>
    if g.entries.any isSingular then .ok (.mixed g)
    else if g.entries.any isText then .error .unfit
    else (g.convert Value.toFloat).map numbers

/-- The operand of a value. An integer by itself becomes a float, however long it is. -/
def ofValue : Value → Except ValueFault Operand
  | .list items => ofNested (.list items)
  | .tuple items => ofNested (.tuple items)
  | .text _ => .error .unfit
  | .null => .ok (.mixed (.single .null))
  | .record fields => .ok (.mixed (.single (.record fields)))
  | v => v.toFloat.map fun x => .numbers (.single x)

/-- Whether each number of a grid stands in a relation to the operand. -/
def relate (holds : Value.Number → Value.Number → Bool) (g : Grid Float) (o : Operand) :
    Except ValueFault (Grid Bool) :=
  let shape? := Grid.commonShape? g.shape <|
    match o with
    | numbers h => h.shape
    | mixed h => h.shape
  match shape?, o with
  | none, _ => .error .unreadable
  | some shape, numbers h =>
    .ok ⟨shape, List.zipWith (fun x y => holds (.real x) (.real y)) (g.stretch shape)
      (h.stretch shape)⟩
  | some shape, mixed h =>
    (((g.stretch shape).zip (h.stretch shape)).mapM fun (p : Float × Value) =>
      p.2.number.map fun n => holds (.real p.1) n).map fun entries => ⟨shape, entries⟩

end Operand
end SpaceCurve
