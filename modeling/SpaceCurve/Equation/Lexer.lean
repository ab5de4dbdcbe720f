import SpaceCurve.Equation.SyntaxError
import SpaceCurve.Text.Blank
import SpaceCurve.Text.Numeric

/-!
# From text to tokens

`lexemeAt` reads the lexeme that begins at a character: the longest run that the character's class
allows. `scan` skips white space and reads one lexeme after another. Each lexeme takes at least
the character it begins with, which is why scanning ends.
-/

set_option autoImplicit false

namespace SpaceCurve
namespace Lexer

/-- Whether the character may stand in a number. -/
def inNumber (c : Char) : Bool := c.isDigit || c == '.'

/-- Whether a run of digits and points is a number: at most one point, and not a point alone. -/
def isNumber (run : List Char) : Bool := run.count '.' ≤ 1 && run != ['.']

/-- The lexeme of a single character. -/
def single? : Char → Option Lexeme
  | '+' => some (.operator .add)
  | '-' => some (.operator .sub)
  | '/' => some (.operator .div)
  | '^' => some (.operator .pow)
  | '(' => some .opening
  | ')' => some .closing
  | ',' => some .comma
  | _ => none

/-- What is wrong where a lexeme should begin, and the text it is about. -/
abbrev Flaw := Complaint × List Char

/-- The lexeme that begins at a character, and the text after it. -/
def lexemeAt (c : Char) (rest : List Char) : Except Flaw (Lexeme × List Char) :=
  if inNumber c then
    let run := c :: rest.takeWhile inNumber
    if isNumber run then .ok (.number run, rest.dropWhile inNumber)
    else .error (.malformedNumber (String.ofList run), run)
  else if Text.beginsName c then
    let run := c :: rest.takeWhile Text.continuesName
    match Symbol.ofSpelling? (String.ofList run) with
    | some s => .ok (.symbol s, rest.dropWhile Text.continuesName)
    | none => .error (.unknownSymbol (String.ofList run), run)
  else if c == '*' then
    match rest with
    | '*' :: after => .ok (.operator .pow, after)
    | _ => .ok (.operator .mul, rest)
  else
    match single? c with
    | some l => .ok (l, rest)
    | none => .error (.unexpectedCharacter c, [c])

theorem length_dropWhile_le (p : Char → Bool) (text : List Char) :
    (text.dropWhile p).length ≤ text.length :=
  (List.dropWhile_sublist p).length_le

/-- No lexeme gives text back. -/
theorem length_after_le {c : Char} {rest after : List Char} {l : Lexeme}
    (h : lexemeAt c rest = .ok (l, after)) : after.length ≤ rest.length := by
  unfold lexemeAt at h
  split at h
  · simp only at h
    split at h
    · cases h
      exact length_dropWhile_le _ _
    · cases h
  · split at h
    · simp only at h
      split at h
      · cases h
        exact length_dropWhile_le _ _
      · cases h
    · split at h
      · split at h
        · cases h
          simp
        · cases h
          exact Nat.le_refl _
      · split at h
        · cases h
          exact Nat.le_refl _
        · cases h

/-- The tokens of a text whose first character stands at `position`. -/
def scan (position : Nat) (text : List Char) : Except SyntaxError (List Token) :=
  match text with
  | [] => .ok []
  | c :: rest =>
    if Text.isBlank c then scan (position + 1) rest
    else
      match _h : lexemeAt c rest with
      | .error (complaint, run) => .error (SyntaxError.atText complaint position (String.ofList run))
      | .ok (l, after) =>
        match scan (position + 1 + (rest.length - after.length)) after with
        | .error e => .error e
        | .ok tokens => .ok (⟨l, position⟩ :: tokens)
termination_by text.length
decreasing_by
  · simp
  · have := length_after_le _h
    simp only [List.length_cons]
    omega

end Lexer

/-- The tokens of an equation's text. -/
def tokenize (text : List Char) : Except SyntaxError (List Token) := Lexer.scan 0 text

/-- The table of the tokens, with the end of the text in the last row. -/
def tokenRows (text : List Char) : Except SyntaxError (List Token.Row) :=
  (tokenize text).map fun tokens => tokens.map Token.row ++ [Token.endRow text.length]

end SpaceCurve
