import SpaceCurve.Check

/-!
# Checks on the text of an equation

An equation must be there, its parentheses must match, and it must parse. The parentheses are
counted: an opening one raises the depth, a closing one lowers it and is stray at depth zero.
-/

set_option autoImplicit false

namespace SpaceCurve

/-! ## Presence -/

/-- Whether a source is a text with more than white space in it. -/
def isPresent : Value → Bool
  | .text s => Text.strip s.toList != []
  | _ => false

/-- The report on the presence of an equation. -/
def presenceReport (source : Value) : Fields :=
  Check.reportOf .empty (isPresent source) [("type", .text source.kind)]

/-! ## Parentheses -/

/-- What counting parentheses shows: the greatest depth, how many stay open at the end, and where
the first stray closing parenthesis stands. Nothing after a stray one is looked at. -/
structure Balance where
  maxDepth : Nat
  unclosed : Nat
  stray : Option Nat
  deriving DecidableEq, Repr

namespace Balance

/-- Counts from a character at `position` on, with `depth` parentheses open. -/
def scan (depth maxDepth position : Nat) : List Char → Balance
  | [] => ⟨maxDepth, depth, none⟩
  | c :: rest =>
    if c == '(' then scan (depth + 1) (max maxDepth (depth + 1)) (position + 1) rest
    else if c == ')' then
      match depth with
      | 0 => ⟨maxDepth, 0, some position⟩
      | d + 1 => scan d maxDepth (position + 1) rest
    else scan depth maxDepth (position + 1) rest

/-- The balance of a text. -/
def ofText (text : List Char) : Balance := scan 0 0 0 text

/-- Whether all parentheses match. -/
def isBalanced (b : Balance) : Bool := b.stray.isNone && b.unclosed == 0

/-- The element of a value as a character; what is none counts as a blank. -/
def mark : Value → Char
  | .text s =>
    match s.toList with
    | [c] => c
    | _ => ' '
  | _ => ' '

/-- The balance of a text, or of the elements of another value. -/
def ofValue (source : Value) : Except ValueFault Balance :=
  source.elements.map fun items => ofText (items.map mark)

/-- The report on the parentheses of an equation. -/
def report (b : Balance) : Fields :=
  Check.reportOf .parentheses b.isBalanced
    [("max_depth", .int b.maxDepth), ("unclosed", .int b.unclosed),
      ("first_unmatched_close",
        match b.stray with
        | some p => .int p
        | none => .null)]

end Balance

/-! ## Grammar -/

/-- A number, or nothing. -/
def positionValue : Option Nat → Value
  | some p => .int p
  | none => .null

/-- A text, or nothing. -/
def fragmentValue : Option String → Value
  | some s => .text s
  | none => .null

/-- The place that a syntax error points to, as fields. -/
def SyntaxError.toFields (e : SyntaxError) : Fields :=
  [("reason", .text e.reason), ("position", positionValue e.position),
    ("fragment", fragmentValue e.fragment)]

/-- The report on the grammar of an equation. -/
def grammarReport (parsed : Except SyntaxError Equation) : Fields :=
  match parsed with
  | .ok e =>
    Check.report true (Check.passedText .grammar)
        [("functions", .list (e.root.functions.map .text))] ++
      [("expression", .text e.source)]
  | .error e =>
    Check.report false (Check.grammarText e) e.toFields ++ [("expression", .null)]

end SpaceCurve
