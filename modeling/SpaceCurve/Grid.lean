import SpaceCurve.Value

/-!
# Grids

A grid is an array of any rank: its lengths along the axes, and its entries row after row. Regular
nested lists are read with `Grid.ofValue?` and written with `Grid.toValue`. Functions of one entry
keep the shape. Two grids are combined in a common shape, in which an axis of length one is
repeated as often as the other grid needs it.
-/

set_option autoImplicit false

namespace SpaceCurve

/-- An array of any rank. There are as many entries as the volume of the shape says. -/
structure Grid (α : Type) where
  shape : List Nat
  entries : List α
  deriving DecidableEq, Repr

namespace Grid

variable {α β ε : Type}

/-- The number of entries in a shape. -/
def volume : List Nat → Nat
  | [] => 1
  | n :: rest => n * volume rest

/-- The largest number of axes. -/
def maxRank : Nat := 64

/-- A grid without axes. -/
def single (x : α) : Grid α := ⟨[], [x]⟩

/-- The grid with a function applied to each entry. -/
def map (f : α → β) (g : Grid α) : Grid β := ⟨g.shape, g.entries.map f⟩

/-- The grid with a function applied to each entry; the first entry that it refuses decides. -/
def convert (f : α → Except ε β) (g : Grid α) : Except ε (Grid β) :=
  (g.entries.mapM f).map fun entries => ⟨g.shape, entries⟩

/-- A function of one entry keeps the shape. -/
theorem shape_map (f : α → β) (g : Grid α) : (g.map f).shape = g.shape := rfl

theorem entries_map (f : α → β) (g : Grid α) : (g.map f).entries = g.entries.map f := rfl

/-! ## Rows -/

/-- A list cut into so many pieces of one size. -/
def chunks (size : Nat) : Nat → List α → List (List α)
  | 0, _ => []
  | count + 1, xs => xs.take size :: chunks size count (xs.drop size)

theorem length_chunks (size : Nat) (count : Nat) (xs : List α) :
    (chunks size count xs).length = count := by
  induction count generalizing xs with
  | zero => rfl
  | succ count ih => simp [chunks, ih]

/-- Put together again, the pieces are the list. -/
theorem flatten_chunks {size count : Nat} {xs : List α} (h : xs.length = count * size) :
    (chunks size count xs).flatten = xs := by
  induction count generalizing xs with
  | zero => simpa [chunks, eq_comm] using h
  | succ count ih =>
    rw [chunks, List.flatten_cons, ih, List.take_append_drop]
    rw [List.length_drop, h, Nat.succ_mul, Nat.add_sub_cancel]

/-- The entries of each row; a grid without axes has no rows. -/
def rows (g : Grid α) : List (List α) :=
  match g.shape with
  | [] => []
  | n :: rest => chunks (volume rest) n g.entries

/-- For each place on the other axes, whether an entry on the second axis is true. -/
def anyOnSecond (g : Grid Bool) : List Bool :=
  match g.shape with
  | n :: m :: rest =>
    (chunks (m * volume rest) n g.entries).flatMap fun row =>
      (chunks (volume rest) m row).foldl (List.zipWith or) (List.replicate (volume rest) false)
  | _ => g.entries

/-! ## Nested lists -/

mutual

/-- The shape of nested lists; none when they are not regular. -/
def shapeOf? : Value → Option (List Nat)
  | .list items => shapeOfItems? items
  | .tuple items => shapeOfItems? items
  | _ => some []

/-- The shape of a list whose items must have one shape. -/
def shapeOfItems? : List Value → Option (List Nat)
  | [] => some [0]
  | [item] => (shapeOf? item).map (1 :: ·)
  | item :: rest =>
    match shapeOf? item, shapeOfItems? rest with
    | some s, some (n :: t) => if s == t then some ((n + 1) :: s) else none
    | _, _ => none

end

mutual

/-- What nested lists hold in the end, from left to right. -/
def leaves : Value → List Value
  | .list items => leavesOfItems items
  | .tuple items => leavesOfItems items
  | v => [v]

/-- What several values hold in the end. -/
def leavesOfItems : List Value → List Value
  | [] => []
  | v :: rest => leaves v ++ leavesOfItems rest

end

/-- The grid of regular nested lists, or of a value that is no list. -/
def ofValue? (v : Value) : Option (Grid Value) :=
  match shapeOf? v with
  | some shape => if shape.length ≤ maxRank then some ⟨shape, leaves v⟩ else none
  | none => none

/-- Entries as lists nested in a shape. -/
def nest : List Nat → List Value → Value
  | [], entries => entries.headD .null
  | n :: rest, entries => .list ((chunks (volume rest) n entries).map (nest rest))

/-- The grid as nested lists. -/
def toValue (g : Grid Value) : Value := nest g.shape g.entries

/-- An entry read as loosely as possible: a missing one is `nan`, text is read. -/
def looseEntry : Value → Except ValueFault Float
  | .null => .ok (0.0 / 0.0)
  | v => v.toFloat

/-- The numbers that a value holds, read as loosely as possible. -/
def numbersOf (v : Value) : Except ValueFault (Grid Float) :=
  match ofValue? v with
  | some g => g.convert looseEntry
  | none => .error .unreadable

/-! ## Common shapes -/

/-- The length of an axis on which two lengths meet: they are equal, or one of them is one. -/
def commonLength? (m n : Nat) : Option Nat :=
  if m == n || n == 1 then some m
  else if m == 1 then some n
  else none

/-- The common shape of two shapes of one rank. -/
def commonAxes? : List Nat → List Nat → Option (List Nat)
  | [], [] => some []
  | m :: s, n :: t =>
    match commonLength? m n, commonAxes? s t with
    | some length, some rest => some (length :: rest)
    | _, _ => none
  | _, _ => none

/-- A shape with axes of length one in front, up to a rank. -/
def padTo (rank : Nat) (shape : List Nat) : List Nat :=
  List.replicate (rank - shape.length) 1 ++ shape

/-- The common shape of two shapes, which are aligned at their last axes. -/
def commonShape? (s t : List Nat) : Option (List Nat) :=
  commonAxes? (padTo t.length s) (padTo s.length t)

/-- Entries repeated along the axes on which the second length is not the first one. -/
def repeatAlong : List (Nat × Nat) → List α → List α
  | [], entries => entries
  | (m, n) :: axes, entries =>
    let row := ((chunks (volume (axes.map (·.1))) m entries).map (repeatAlong axes)).flatten
    if m == n then row else (List.replicate n row).flatten

/-- The entries of the grid in a shape that it has in common with another grid. -/
def stretch (g : Grid α) (shape : List Nat) : List α :=
  repeatAlong ((padTo shape.length g.shape).zip shape) g.entries

end Grid
end SpaceCurve
