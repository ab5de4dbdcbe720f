import SpaceCurve.Decimal.Binary64

/-!
# The lexicon of equations

An equation may use the parameter `t`, two constants, eighteen functions and five operators, and
nothing else. This module lists them with their spellings, and fixes how long and how deeply
nested an equation may be.
-/

set_option autoImplicit false

namespace SpaceCurve

/-- The functions an equation may call. -/
inductive Func where
  | sin | cos | tan
  | asin | acos | atan
  | sinh | cosh | tanh
  | sqrt | pow | abs
  | floor | ceil | round
  | exp | log | log10
  deriving DecidableEq, Repr

/-- The named constants. -/
inductive Constant where
  | pi | e
  deriving DecidableEq, Repr

/-- The operators between two operands. -/
inductive Operator where
  | add | sub | mul | div | pow
  deriving DecidableEq, Repr

/-- What a name in an equation can mean. -/
inductive Symbol where
  | parameter
  | constant (c : Constant)
  | function (f : Func)
  deriving DecidableEq, Repr

namespace Func

/-- All functions, in the order of the tables that list them. -/
def all : List Func :=
  [.sin, .cos, .tan, .asin, .acos, .atan, .sinh, .cosh, .tanh, .sqrt, .pow, .abs, .floor, .ceil,
    .round, .exp, .log, .log10]

/-- The name that calls the function. -/
def spelling : Func → String
  | .sin => "sin"
  | .cos => "cos"
  | .tan => "tan"
  | .asin => "asin"
  | .acos => "acos"
  | .atan => "atan"
  | .sinh => "sinh"
  | .cosh => "cosh"
  | .tanh => "tanh"
  | .sqrt => "sqrt"
  | .pow => "pow"
  | .abs => "abs"
  | .floor => "floor"
  | .ceil => "ceil"
  | .round => "round"
  | .exp => "exp"
  | .log => "log"
  | .log10 => "log10"

/-- The number of arguments: two for `pow`, one for all others. -/
def arity : Func → Nat
  | .pow => 2
  | _ => 1

/-- The function with a name. -/
def ofSpelling? (name : String) : Option Func := all.find? fun f => f.spelling == name

theorem ofSpelling?_spelling (f : Func) : ofSpelling? f.spelling = some f := by
  cases f <;> decide

theorem mem_all (f : Func) : f ∈ all := by
  cases f <;> decide

/-- A name that is found is the function's own. -/
theorem spelling_of_ofSpelling? {name : String} {f : Func} (h : ofSpelling? name = some f) :
    f.spelling = name := by
  simpa using List.find?_some h

end Func

namespace Constant

/-- Both constants. -/
def all : List Constant := [.pi, .e]

/-- The name of the constant. -/
def spelling : Constant → String
  | .pi => "pi"
  | .e => "e"

/-- The float nearest to the constant. -/
def value : Constant → Float
  | .pi => Binary64.pi
  | .e => 2.718281828459045

/-- The constant with a name. -/
def ofSpelling? (name : String) : Option Constant := all.find? fun c => c.spelling == name

theorem ofSpelling?_spelling (c : Constant) : ofSpelling? c.spelling = some c := by
  cases c <;> decide

end Constant

namespace Operator

/-- All operators. -/
def all : List Operator := [.add, .sub, .mul, .div, .pow]

/-- The sign of the operator. -/
def sign : Operator → String
  | .add => "+"
  | .sub => "-"
  | .mul => "*"
  | .div => "/"
  | .pow => "^"

/-- How tightly the operator binds. -/
def strength : Operator → Nat
  | .add => 1
  | .sub => 1
  | .mul => 2
  | .div => 2
  | .pow => 3

/-- The operator with a sign. -/
def ofSign? (sign : String) : Option Operator := all.find? fun o => o.sign == sign

theorem ofSign?_sign (o : Operator) : ofSign? o.sign = some o := by
  cases o <;> decide

end Operator

namespace Symbol

/-- The name of the parameter. -/
def parameterName : String := "t"

/-- All names. -/
def all : List Symbol := .parameter :: Constant.all.map .constant ++ Func.all.map .function

/-- The symbol's name. -/
def spelling : Symbol → String
  | .parameter => parameterName
  | .constant c => c.spelling
  | .function f => f.spelling

/-- The symbol with a name. -/
def ofSpelling? (name : String) : Option Symbol := all.find? fun s => s.spelling == name

theorem ofSpelling?_spelling (s : Symbol) : ofSpelling? s.spelling = some s := by
  cases s with
  | parameter => decide
  | constant c => cases c <;> decide
  | function f => cases f <;> decide

/-- A name that is found is the symbol's own. -/
theorem spelling_of_ofSpelling? {name : String} {s : Symbol} (h : ofSpelling? name = some s) :
    s.spelling = name := by
  simpa using List.find?_some h

end Symbol

namespace Lexicon

/-- The word for negation in a tree. -/
def negation : String := "neg"

/-- The second spelling of the power operator. -/
def powerAlias : String := "**"

/-- The characters that group and separate. -/
def punctuation : List String := ["(", ")", ","]

/-- The most characters an equation may have. -/
def maxLength : Nat := 500

/-- The most nesting constructs that may enclose a token. -/
def maxDepth : Nat := 64

end Lexicon
end SpaceCurve
