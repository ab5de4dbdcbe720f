import SpaceCurve.Equation.Lexer
import SpaceCurve.Equation.Tree

/-!
# From tokens to a tree

The parser is a machine that takes one token a step. It keeps a stack of the constructs that are
open: operators that wait for their right operand, parentheses and calls that wait for their end.

```text
expression := term (("+" | "-") term)*
term       := unary (("*" | "/") unary)*
unary      := "-" unary | power
power      := primary ("^" unary)?
primary    := number | name | function "(" expression ("," expression)* ")" | "(" expression ")"
```

After an operand the next token decides which waiting operators are complete: `^` none, `*` and
`/` those that bind at least as tightly as themselves, all others every operator up to the
innermost parenthesis. So sums and products group to the left, powers to the right, and a minus
sign takes the whole power after it. Minus signs, powers, parentheses and calls nest, and only so
many nested constructs may be open at a time.
-/

set_option autoImplicit false

namespace SpaceCurve
namespace Parser

/-- A construct that is still open. -/
inductive Frame where
  /-- An operator with its left operand, waiting for the right one. -/
  | binary (op : Operator) (left : Tree)
  /-- A minus sign waiting for its operand. -/
  | negate
  /-- A parenthesis that opened at a position. -/
  | group (opening : Nat)
  /-- A call: the function, where its name and its parenthesis stand, the arguments so far. -/
  | call (f : Func) (name opening : Nat) (args : List Tree)

/-- Whether the construct counts towards the depth of nesting. -/
def Frame.nests : Frame → Bool
  | .binary op _ => op == .pow
  | _ => true

/-- What the machine has just read. -/
inductive Focus where
  /-- Nothing yet: an operand must come. -/
  | operand
  /-- The name of a function: its parenthesis must come. -/
  | callee (f : Func) (name : Nat)
  /-- A complete operand. -/
  | complete (tree : Tree)

/-- The machine between two tokens. The innermost open construct comes first. -/
structure State where
  stack : List Frame
  focus : Focus

/-- The number of nesting constructs that are open. -/
def depth (stack : List Frame) : Nat := stack.countP Frame.nests

/-- The stack with one more nesting construct, which `t` opens. -/
def nest (frame : Frame) (stack : List Frame) (t : Token) : Except SyntaxError (List Frame) :=
  if Lexicon.maxDepth ≤ depth stack then .error (SyntaxError.atToken .tooDeep t)
  else .ok (frame :: stack)

/-- An operand completes the minus signs before it and the operators that bind at least as tightly
as `least`. -/
def release (least : Nat) : List Frame → Tree → List Frame × Tree
  | .negate :: rest, v => release least rest (.unary Lexicon.negation v)
  | .binary op left :: rest, v =>
    if least ≤ op.strength then release least rest (.binary op.sign left v)
    else (.binary op left :: rest, v)
  | stack, v => (stack, v)

/-- An operand completes all that waits for it within the innermost parenthesis. -/
def releaseAll : List Frame → Tree → List Frame × Tree := release 1

/-- A call is closed; it needs as many arguments as the function takes. -/
def close (f : Func) (name : Nat) (args : List Tree) (rest : List Frame) :
    Except SyntaxError State :=
  if args.length == f.arity then .ok ⟨rest, .complete (.call f.spelling args)⟩
  else .error (SyntaxError.atText (.wrongCount f args.length) name f.spelling)

/-- A step where an operand must come. -/
def stepOperand (stack : List Frame) (t : Token) : Except SyntaxError State :=
  match t.lexeme with
  | .number text => .ok ⟨stack, .complete (.number (Numeral.decimal text))⟩
  | .symbol .parameter => .ok ⟨stack, .complete (.parameter Symbol.parameterName)⟩
  | .symbol (.constant c) => .ok ⟨stack, .complete (.constant c.spelling)⟩
  | .symbol (.function f) => .ok ⟨stack, .callee f t.position⟩
  | .operator .sub => (nest .negate stack t).map fun s => ⟨s, .operand⟩
  | .opening => (nest (.group t.position) stack t).map fun s => ⟨s, .operand⟩
  | .closing =>
    match stack with
    | .call f name _ [] :: rest => close f name [] rest
    | _ => .error (SyntaxError.atToken .strayClosing t)
  | .operator o => .error (SyntaxError.atToken (.unexpectedToken o.sign) t)
  | .comma => .error (SyntaxError.atToken (.unexpectedToken t.lexeme.text) t)

/-- A token that can neither continue the operand before it nor end the innermost parenthesis. -/
def misplaced (stack : List Frame) (t : Token) : SyntaxError :=
  match stack with
  | [] => SyntaxError.atToken (.missingOperator t.lexeme.text) t
  | _ => SyntaxError.atToken (.expectedClosing t.lexeme.text) t

/-- A step after a complete operand. -/
def stepComplete (stack : List Frame) (v : Tree) (t : Token) : Except SyntaxError State :=
  match t.lexeme with
  | .operator .pow => (nest (.binary .pow v) stack t).map fun s => ⟨s, .operand⟩
  | .operator o =>
    let (waiting, left) := release o.strength stack v
    .ok ⟨.binary o left :: waiting, .operand⟩
  | .comma =>
    match releaseAll stack v with
    | (.call f name opening args :: rest, arg) =>
      .ok ⟨.call f name opening (args ++ [arg]) :: rest, .operand⟩
    | (waiting, _) => .error (misplaced waiting t)
  | .closing =>
    match releaseAll stack v with
    | (.group _ :: rest, inner) => .ok ⟨rest, .complete inner⟩
    | (.call f name _ args :: rest, arg) => close f name (args ++ [arg]) rest
    | _ => .error (SyntaxError.atToken .strayClosing t)
  | _ => .error (misplaced (releaseAll stack v).1 t)

/-- One step of the machine. -/
def step (s : State) (t : Token) : Except SyntaxError State :=
  match s.focus with
  | .operand => stepOperand s.stack t
  | .callee f name =>
    match t.lexeme with
    | .opening => (nest (.call f name t.position []) s.stack t).map fun stack => ⟨stack, .operand⟩
    | _ => .error (SyntaxError.atText (.notCalled f) name f.spelling)
  | .complete v => stepComplete s.stack v t

/-- The tree at the end of the text, which stands at `stop`. -/
def finish (s : State) (stop : Nat) : Except SyntaxError Tree :=
  match s.focus with
  | .operand => .error (SyntaxError.atEnd .unexpectedEnd stop)
  | .callee f name => .error (SyntaxError.atText (.notCalled f) name f.spelling)
  | .complete v =>
    match releaseAll s.stack v with
    | (.group opening :: _, _) => .error (SyntaxError.atText .missingClosing opening "(")
    | (.call _ _ opening _ :: _, _) => .error (SyntaxError.atText .missingClosing opening "(")
    | (_, tree) => .ok tree

/-- The machine before the first token. -/
def start : State := ⟨[], .operand⟩

/-- The tree of a list of tokens whose text ends at `stop`. -/
def parseTokens (tokens : List Token) (stop : Nat) : Except SyntaxError Tree :=
  (tokens.foldlM step start).bind fun s => finish s stop

end Parser

/-- The tree of an equation's text. -/
def parseText (text : List Char) : Except SyntaxError Tree :=
  if Lexicon.maxLength < text.length then .error (SyntaxError.overall .tooLong)
  else if text.all Text.isBlank then .error (SyntaxError.overall .blank)
  else (tokenize text).bind fun tokens => Parser.parseTokens tokens text.length

end SpaceCurve
