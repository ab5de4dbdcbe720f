import SpaceCurve.Decimal.Binary64
import SpaceCurve.Equation.Tree

/-!
# Programs

A tree names what it uses; a `Program` holds the operators, functions and constants themselves.
`Tree.resolve` looks the names up, a node before its children and the children from left to right,
and fails at the first name that means nothing. `Program.eval?` is the value of a program at a
parameter in floating point, where a domain fault gives `nan` or an infinity; the one thing that
has no value is a call with a wrong number of arguments.

The parameter may be single or one of many. This makes a difference to powers alone: an exponent
that is the same for all parameters is looked at before the power is taken.
-/

set_option autoImplicit false

namespace SpaceCurve

/-- A tree whose names have been looked up. -/
inductive Program where
  | number (value : Float)
  | parameter
  | binary (op : Operator) (left right : Program)
  | negate (arg : Program)
  | call (f : Func) (args : List Program)
  deriving Inhabited

/-- Why a tree is no program. -/
inductive ResolveFault where
  | unknownOperator (op : String)
  | unknownSign (op : String)
  | unknownFunction (name : String)
  | unknownConstant (name : String)
  | unknownNode
  deriving DecidableEq, Repr

namespace ResolveFault

/-- The fault in words. -/
def message : ResolveFault → String
  | unknownOperator op => "Unknown binary op: " ++ op
  | unknownSign op => "Unknown unary op: " ++ op
  | unknownFunction name => "Unknown function: " ++ name
  | unknownConstant name => name
  | unknownNode => "Unknown node type: ASTNode"

end ResolveFault

/-! ## Looking names up -/

namespace Tree

mutual

/-- The program of a tree, or the first name that means nothing. This is a recursion over the tree,
and there is always room for it: no tree is too high. -/
def resolve : Tree → Except ResolveFault Program
  | number x => .ok (.number x)
  | parameter _ => .ok .parameter
  | constant name =>
    match Constant.ofSpelling? name with
    | some c => .ok (.number c.value)
    | none => .error (.unknownConstant name)
  | binary op left right =>
    match Operator.ofSign? op with
    | some o => left.resolve.bind fun l => right.resolve.map fun r => .binary o l r
    | none => .error (.unknownOperator op)
  | unary op arg =>
    if op == Lexicon.negation then arg.resolve.map .negate else .error (.unknownSign op)
  | call name args =>
    match Func.ofSpelling? name with
    | some f => (resolveAll args).map fun programs => .call f programs
    | none => .error (.unknownFunction name)
  | blank => .error .unknownNode

/-- The programs of several trees, or the first name in them that means nothing. -/
def resolveAll : List Tree → Except ResolveFault (List Program)
  | [] => .ok []
  | t :: rest => t.resolve.bind fun p => (resolveAll rest).map fun ps => p :: ps

end

end Tree

/-! ## Values -/

/-- A power. An exponent that is `fixed`, the same at all parameters, is looked at first: `-1`, `0`,
`1/2`, `1` and `2` stand for the reciprocal, one, the square root, the base and its square. So the
root of `-0` is `-0` and that of `-inf` is `nan`, where the power in general has `0` and `inf`. -/
def power (fixed : Bool) (base exponent : Float) : Float :=
  if !fixed then base.pow exponent
  else if exponent == -1.0 then 1.0 / base
  else if exponent == 0.0 then 1.0
  else if exponent == 0.5 then base.sqrt
  else if exponent == 1.0 then base
  else if exponent == 2.0 then base * base
  else base.pow exponent

/-- The operator's result; `fixed` says whether the right operand is the same at all parameters. -/
def Operator.apply (fixed : Bool) : Operator → Float → Float → Float
  | .add, x, y => x + y
  | .sub, x, y => x - y
  | .mul, x, y => x * y
  | .div, x, y => x / y
  | .pow, x, y => power fixed x y

/-- The function's result; none when the number of arguments is wrong. `fixed` says whether the
second argument is the same at all parameters. -/
def Func.result? (fixed : Bool) : Func → List Float → Option Float
  | .sin, [x] => some x.sin
  | .cos, [x] => some x.cos
  | .tan, [x] => some x.tan
  | .asin, [x] => some x.asin
  | .acos, [x] => some x.acos
  | .atan, [x] => some x.atan
  | .sinh, [x] => some x.sinh
  | .cosh, [x] => some x.cosh
  | .tanh, [x] => some x.tanh
  | .sqrt, [x] => some x.sqrt
  | .pow, [x, y] => some (power fixed x y)
  | .abs, [x] => some x.abs
  | .floor, [x] => some (Binary64.floor x)
  | .ceil, [x] => some (Binary64.ceil x)
  | .round, [x] => some (Binary64.halfUp x)
  | .exp, [x] => some x.exp
  | .log, [x] => some x.log
  | .log10, [x] => some x.log10
  | _, _ => none

/-- A function has a value on exactly as many arguments as it takes. -/
theorem Func.isSome_result?_iff (fixed : Bool) (f : Func) (xs : List Float) :
    (f.result? fixed xs).isSome ↔ xs.length = f.arity := by
  match xs with
  | [] => cases f <;> simp [result?, arity]
  | [x] => cases f <;> simp [result?, arity]
  | [x, y] => cases f <;> simp [result?, arity]
  | x :: y :: z :: rest => cases f <;> simp [result?, arity]

namespace Program

mutual

/-- Whether the program does without the parameter. -/
def isConstant : Program → Bool
  | number _ => true
  | parameter => false
  | binary _ left right => left.isConstant && right.isConstant
  | negate arg => arg.isConstant
  | call _ args => areConstant args

/-- Whether several programs do without the parameter. -/
def areConstant : List Program → Bool
  | [] => true
  | p :: rest => p.isConstant && areConstant rest

end

/-- Whether the second of the arguments does without the parameter. -/
def isSecondConstant : List Program → Bool
  | _ :: p :: _ => p.isConstant
  | _ => true

mutual

/-- Whether the value of the program is a cell that a call may overwrite: a rounding makes a fresh
one, and a call that was handed one passes it on. -/
def isCell : Program → Bool
  | call .round [_] => true
  | call f args => f != .round && args.length == f.arity + 1 && endsInCell args
  | _ => false

/-- Whether the last of the programs has a cell as its value. -/
def endsInCell : List Program → Bool
  | [] => false
  | [p] => p.isCell
  | _ :: rest => endsInCell rest

end

/-- Whether the call has one argument too many and that one is a cell for its result. Rounding
takes none. -/
def hasSpareCell (f : Func) (args : List Program) : Bool :=
  f != .round && args.length == f.arity + 1 && endsInCell args

mutual

/-- The value of the program at a parameter, which is `single` or one of many; none when the program
holds a call with a wrong number of arguments. -/
def eval? (single : Bool) (t : Float) : Program → Option Float
  | number x => some x
  | parameter => some t
  | binary op left right => do
    let x ← left.eval? single t
    let y ← right.eval? single t
    return op.apply (single || right.isConstant) x y
  | negate arg => do
    let x ← arg.eval? single t
    return -x
  | call f args => do
    let xs ← evalAll? single t args
    f.result? (single || isSecondConstant args)
      (if hasSpareCell f args then xs.dropLast else xs)

/-- The values of several programs. -/
def evalAll? (single : Bool) (t : Float) : List Program → Option (List Float)
  | [] => some []
  | p :: rest => do
    let x ← p.eval? single t
    let xs ← evalAll? single t rest
    return x :: xs

end

end Program
end SpaceCurve
