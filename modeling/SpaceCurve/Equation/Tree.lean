import SpaceCurve.Lexicon
import SpaceCurve.Value

/-!
# Equation trees

A tree names its operators, functions and constants by text, so that a tree built by hand may hold
names that mean nothing; the parser builds only trees of the lexicon. `walk` visits the nodes with
an explicit stack, `encode` turns a tree into a record in the format `knot_ast_v1`.
-/

set_option autoImplicit false

namespace SpaceCurve

/-- The tree of an equation. `blank` stands for a node of no particular kind. -/
inductive Tree where
  | number (value : Float)
  | parameter (name : String)
  | constant (name : String)
  | binary (op : String) (left right : Tree)
  | unary (op : String) (arg : Tree)
  | call (name : String) (args : List Tree)
  | blank
  deriving Inhabited

namespace Tree

/-- The trees directly below the root, from left to right. -/
def children : Tree → List Tree
  | binary _ left right => [left, right]
  | unary _ arg => [arg]
  | call _ args => args
  | _ => []

mutual

/-- Whether two trees are equal: nodes of one kind with the same names and equal numbers. -/
def same : Tree → Tree → Bool
  | number x, number y => x == y
  | parameter m, parameter n => m == n
  | constant m, constant n => m == n
  | binary o l r, binary p m s => o == p && same l m && same r s
  | unary o a, unary p b => o == p && same a b
  | call m xs, call n ys => m == n && sameAll xs ys
  | blank, blank => true
  | _, _ => false

/-- Whether the trees in two lists are equal one by one. -/
def sameAll : List Tree → List Tree → Bool
  | [], [] => true
  | x :: xs, y :: ys => same x y && sameAll xs ys
  | _, _ => false

end

mutual

/-- The number of nodes. -/
def size : Tree → Nat
  | number _ => 1
  | parameter _ => 1
  | constant _ => 1
  | binary _ left right => 1 + left.size + right.size
  | unary _ arg => 1 + arg.size
  | call _ args => 1 + sizeAll args
  | blank => 1

/-- The number of nodes of several trees. -/
def sizeAll : List Tree → Nat
  | [] => 0
  | t :: rest => t.size + sizeAll rest

end

theorem sizeAll_append (xs ys : List Tree) : sizeAll (xs ++ ys) = sizeAll xs + sizeAll ys := by
  induction xs with
  | nil => simp [sizeAll]
  | cons x xs ih => simp [sizeAll, ih]; omega

theorem size_eq (t : Tree) : t.size = 1 + sizeAll t.children := by
  cases t <;> simp [size, sizeAll, children]
  omega

/-- The nodes of the trees on the stack, each before its children and those before the next tree:
the top of the stack is taken off and its children take its place. -/
def walkStack (stack : List Tree) : List Tree :=
  match stack with
  | [] => []
  | t :: rest => t :: walkStack (t.children ++ rest)
termination_by sizeAll stack
decreasing_by
  rw [sizeAll_append, sizeAll, size_eq]
  omega

/-- All nodes of the tree in pre-order. -/
def walk (t : Tree) : List Tree := walkStack [t]

/-- The names of the functions that the tree calls, each once, in the order of first use. -/
def functions (t : Tree) : List String :=
  t.walk.foldl (fun seen node =>
    match node with
    | call name _ => if seen.contains name then seen else seen ++ [name]
    | _ => seen) []

mutual

/-- The tree as a record; none when it holds a node of no kind. -/
def encode? : Tree → Option Value
  | number x => some (.record [("type", .text "number"), ("value", .real x)])
  | parameter name => some (.record [("type", .text "var"), ("name", .text name)])
  | constant name => some (.record [("type", .text "const"), ("name", .text name)])
  | binary op left right => do
    let l ← left.encode?
    let r ← right.encode?
    return .record [("type", .text "binop"), ("op", .text op), ("left", l), ("right", r)]
  | unary op arg => do
    let a ← arg.encode?
    return .record [("type", .text "unop"), ("op", .text op), ("arg", a)]
  | call name args => do
    let as ← encodeAll? args
    return .record [("type", .text "call"), ("name", .text name), ("args", .list as)]
  | blank => none

/-- Several trees as records. -/
def encodeAll? : List Tree → Option (List Value)
  | [] => some []
  | t :: rest => do
    let v ← t.encode?
    let vs ← encodeAll? rest
    return v :: vs

end

/-- The record of a tree under the name of its format. As with `encode?`, no tree is too high for
it. -/
def document? (t : Tree) : Option Value :=
  t.encode?.map fun root => .record [("format", .text "knot_ast_v1"), ("root", root)]

end Tree
end SpaceCurve
