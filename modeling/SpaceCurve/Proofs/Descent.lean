import SpaceCurve.Equation

/-!
# Equations read by recursive descent

The machine of the parser keeps its own stack, looks at each token once and cannot help but come to
an end.  Here the same grammar is read in the way in which it is written: each kind of phrase has a
procedure, and the procedures call each other.

This way of reading has more ways to go wrong.  It works on the table of tokens, in which all is
text, and looks at the first row that is left without asking whether there is one; it converts the
text of a number, and looks up the number of arguments by the name of a function.  All of this may
fail, and `Stop` has a name for each failure.  `Descent.parse` is the whole of it, from a value of
any kind to an equation whose names have been looked up.

What is left after a phrase comes with the proof that it is less than what was there before: this is
`Found`.  The procedures end because of it.  A call either goes on behind some rows or goes down one
level of the grammar, and the rank of a level is the second component of the measure.
-/

set_option autoImplicit false

namespace SpaceCurve

/-- What is wrong with a text, in words, and the place it points to. -/
structure Objection where
  reason : String
  position : Option Nat
  fragment : Option String
  deriving DecidableEq, Repr

/-- The error in words. -/
def SyntaxError.objection (e : SyntaxError) : Objection := ⟨e.reason, e.position, e.fragment⟩

namespace Descent

/-- Why no equation was read. -/
inductive Stop where
  /-- A row was looked at where there is none. -/
  | pastEnd
  /-- The text of a number is not one. -/
  | noNumber (text : String)
  /-- The number of arguments was looked up for something that is not a function. -/
  | noFunction (name : String)
  /-- A name in the tree means nothing. -/
  | noProgram (fault : ResolveFault)
  /-- The text is not an equation. -/
  | objection (o : Objection)
  deriving DecidableEq, Repr

/-- What was read, and the rows that are left, which are less than `n`. -/
structure Found (α : Type) (n : Nat) where
  value : α
  after : List Token.Row
  fewer : after.length < n

/-- The same, where there were more rows before. -/
def Found.weaken {α : Type} {m n : Nat} (found : Found α m) (h : m ≤ n) : Found α n :=
  ⟨found.value, found.after, Nat.lt_of_lt_of_le found.fewer h⟩

/-! ## Rows -/

/-- An objection to a row.  The end of the text has no text of its own. -/
def objectAt (reason : String) (row : Token.Row) : Stop :=
  .objection ⟨reason, some row.position, if row.text == "" then none else some row.text⟩

/-- Whether the row is the sign of an operator. -/
def isSign (o : Operator) (row : Token.Row) : Bool := row.kind == "op" && row.text == o.sign

/-- Another nesting construct, which the row opens. -/
def nest (depth : Nat) (row : Token.Row) : Except Stop Unit :=
  if Lexicon.maxDepth ≤ depth then .error (objectAt Complaint.tooDeep.reason row) else .ok ()

/-- The closing parenthesis for an opening one. -/
def closing (opening : Token.Row) (rows : List Token.Row) : Except Stop (Found Unit rows.length) :=
  match rows with
  | [] => .error .pastEnd
  | row :: rest =>
    if row.kind == "rparen" then .ok ⟨(), rest, Nat.lt_succ_self _⟩
    else if row.kind == "eof" then .error (objectAt Complaint.missingClosing.reason opening)
    else .error (objectAt (Complaint.expectedClosing row.text).reason row)

/-- The call of a function, if it has as many arguments as the function takes. -/
def applied (name : Token.Row) (args : List Tree) : Except Stop Tree :=
  match Func.ofSpelling? name.text with
  | none => .error (.noFunction name.text)
  | some f =>
    if args.length == f.arity then .ok (.call name.text args)
    else .error (objectAt (Complaint.wrongCount f args.length).reason name)

/-! ## The levels of operators -/

/-- The two levels of the grammar whose operators are folded to the left. -/
inductive Level where
  | sum | product
  deriving DecidableEq, Repr

namespace Level

/-- The operators of the level. -/
def operators : Level → List Operator
  | .sum => [.add, .sub]
  | .product => [.mul, .div]

/-- Whether the row is the sign of an operator of the level. -/
def takes (l : Level) (row : Token.Row) : Bool := l.operators.any fun o => isSign o row

/-- How far up in the grammar the level is. -/
def rank : Level → Nat
  | .sum => 6
  | .product => 4

end Level

/-! ## The phrases -/

mutual

/-- Operands with operators of the level between them: an expression or a term. -/
def chain (l : Level) (depth : Nat) (rows : List Token.Row) :
    Except Stop (Found Tree rows.length) := do
  let left ← operand l depth rows
  let tree ← links l depth left.value left.after
  return tree.weaken left.fewer
termination_by (rows.length, l.rank + 1)
decreasing_by
  · exact .right _ (by omega)
  · exact .left _ _ left.fewer

/-- What stands between the operators of the level: a term or a unary. -/
def operand (l : Level) (depth : Nat) (rows : List Token.Row) :
    Except Stop (Found Tree rows.length) :=
  match l with
  | .sum => chain .product depth rows
  | .product => unary depth rows
termination_by (rows.length, l.rank)
decreasing_by
  · exact .right _ (by decide)
  · exact .right _ (by decide)

/-- Further operators of the level and their operands, after those that have become `left`. -/
def links (l : Level) (depth : Nat) (left : Tree) (rows : List Token.Row) :
    Except Stop (Found Tree (rows.length + 1)) :=
  match rows with
  | [] => .error .pastEnd
  | row :: rest =>
    if l.takes row then do
      let right ← operand l depth rest
      let tree ← links l depth (.binary row.text left right.value) right.after
      return tree.weaken (by have := right.fewer; simp only [List.length_cons]; omega)
    else .ok ⟨left, row :: rest, Nat.lt_succ_self _⟩
termination_by (rows.length, 0)
decreasing_by
  · exact .left _ _ (Nat.lt_succ_self _)
  · exact .left _ _ (Nat.lt_succ_of_lt right.fewer)

/-- A minus sign and its operand, or a power. -/
def unary (depth : Nat) (rows : List Token.Row) : Except Stop (Found Tree rows.length) :=
  match rows with
  | [] => .error .pastEnd
  | row :: rest =>
    if isSign .sub row then do
      nest depth row
      let arg ← unary (depth + 1) rest
      return ⟨.unary Lexicon.negation arg.value, arg.after, Nat.lt_succ_of_lt arg.fewer⟩
    else power depth (row :: rest)
termination_by (rows.length, 3)

/-- A base, with an exponent if there is one. -/
def power (depth : Nat) (rows : List Token.Row) : Except Stop (Found Tree rows.length) := do
  let base ← primary depth rows
  let tree ← raised depth base.value base.after
  return tree.weaken base.fewer
termination_by (rows.length, 2)
decreasing_by
  · exact .right _ (by omega)
  · exact .left _ _ base.fewer

/-- The exponent of a base, if there is one. -/
def raised (depth : Nat) (base : Tree) (rows : List Token.Row) :
    Except Stop (Found Tree (rows.length + 1)) :=
  match rows with
  | [] => .error .pastEnd
  | row :: rest =>
    if isSign .pow row then do
      nest depth row
      let exponent ← unary (depth + 1) rest
      return ⟨.binary row.text base exponent.value, exponent.after,
        by have := exponent.fewer; simp only [List.length_cons]; omega⟩
    else .ok ⟨base, row :: rest, Nat.lt_succ_self _⟩
termination_by (rows.length, 0)

/-- A number, a name, a call or an expression in parentheses. -/
def primary (depth : Nat) (rows : List Token.Row) : Except Stop (Found Tree rows.length) :=
  match rows with
  | [] => .error .pastEnd
  | row :: rest =>
    if row.kind == "number" then
      match Numeral.float? row.text with
      | some x => .ok ⟨.number x, rest, Nat.lt_succ_self _⟩
      | none => .error (.noNumber row.text)
    else if row.kind == "ident" then named depth row rest
    else if row.kind == "lparen" then do
      let inner ← group depth row rest
      return inner.weaken (Nat.le_succ _)
    else if row.kind == "rparen" then .error (objectAt Complaint.strayClosing.reason row)
    else if row.kind == "eof" then .error (objectAt Complaint.unexpectedEnd.reason row)
    else .error (objectAt (Complaint.unexpectedToken row.text).reason row)
termination_by (rows.length, 1)

/-- What begins with a name: the name itself if it is that of the parameter or of a constant, and
otherwise a call. -/
def named (depth : Nat) (name : Token.Row) (rows : List Token.Row) :
    Except Stop (Found Tree (rows.length + 1)) :=
  if name.text == Symbol.parameterName then .ok ⟨.parameter name.text, rows, Nat.lt_succ_self _⟩
  else if (Constant.ofSpelling? name.text).isSome then
    .ok ⟨.constant name.text, rows, Nat.lt_succ_self _⟩
  else do
    let tree ← call depth name rows
    return tree.weaken (Nat.le_succ _)
termination_by (rows.length, 1)

/-- An expression in parentheses, after the opening one. -/
def group (depth : Nat) (opening : Token.Row) (rows : List Token.Row) :
    Except Stop (Found Tree rows.length) := do
  nest depth opening
  let inner ← chain .sum (depth + 1) rows
  let closed ← closing opening inner.after
  return ⟨inner.value, closed.after, Nat.lt_trans closed.fewer inner.fewer⟩
termination_by (rows.length, 8)
decreasing_by exact .right _ (by decide)

/-- The arguments of a function in parentheses. -/
def call (depth : Nat) (name : Token.Row) (rows : List Token.Row) :
    Except Stop (Found Tree rows.length) :=
  match rows with
  | [] => .error .pastEnd
  | opening :: rest =>
    if opening.kind == "lparen" then do
      nest depth opening
      let args ← arguments (depth + 1) rest
      let closed ← closing opening args.after
      let tree ← applied name args.value
      return ⟨tree, closed.after,
        by have := closed.fewer; have := args.fewer; simp only [List.length_cons]; omega⟩
    else .error (objectAt ("function '" ++ name.text ++ "' must be called with parentheses") name)
termination_by (rows.length, 0)

/-- The arguments of a function, of which there may be none. -/
def arguments (depth : Nat) (rows : List Token.Row) :
    Except Stop (Found (List Tree) (rows.length + 1)) :=
  match rows with
  | [] => .error .pastEnd
  | row :: rest =>
    if row.kind == "rparen" then .ok ⟨[], row :: rest, Nat.lt_succ_self _⟩
    else do
      let first ← chain .sum depth (row :: rest)
      let args ← furtherArguments depth [first.value] first.after
      return args.weaken (Nat.le_succ_of_le first.fewer)
termination_by (rows.length, 8)
decreasing_by
  · exact .right _ (by decide)
  · exact .left _ _ first.fewer

/-- Further arguments, after those that there are. -/
def furtherArguments (depth : Nat) (args : List Tree) (rows : List Token.Row) :
    Except Stop (Found (List Tree) (rows.length + 1)) :=
  match rows with
  | [] => .error .pastEnd
  | row :: rest =>
    if row.kind == "comma" then do
      let arg ← chain .sum depth rest
      let all ← furtherArguments depth (args ++ [arg.value]) arg.after
      return all.weaken (by have := arg.fewer; simp only [List.length_cons]; omega)
    else .ok ⟨args, row :: rest, Nat.lt_succ_self _⟩
termination_by (rows.length, 0)
decreasing_by
  · exact .left _ _ (Nat.lt_succ_self _)
  · exact .left _ _ (Nat.lt_succ_of_lt arg.fewer)

end

/-! ## Texts -/

/-- The tree of a table of tokens, all of which it takes. -/
def read (rows : List Token.Row) : Except Stop Tree := do
  let found ← chain .sum 0 rows
  match found.after with
  | [] => .error .pastEnd
  | row :: _ =>
    if row.kind == "rparen" then .error (objectAt Complaint.strayClosing.reason row)
    else if row.kind == "eof" then .ok found.value
    else .error (objectAt (Complaint.missingOperator row.text).reason row)

/-- The tree of a text. -/
def readText (text : List Char) : Except Stop Tree :=
  if Lexicon.maxLength < text.length then
    .error (.objection (SyntaxError.overall .tooLong).objection)
  else if Text.strip text == [] then .error (.objection (SyntaxError.overall .blank).objection)
  else ((tokenRows text).mapError fun e => .objection e.objection).bind read

/-- The equation that a value holds as text, with all its names looked up. -/
def parse : Value → Except Stop Equation
  | .text s => do
    let root ← readText s.toList
    let _ ← root.resolve.mapError Stop.noProgram
    return ⟨s, root⟩
  | v => .error (.objection (SyntaxError.overall (.notText v.kind)).objection)

end Descent
end SpaceCurve
