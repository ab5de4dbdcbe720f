import SpaceCurve.Equation.Token

/-!
# Complaints about equation text

A complaint says what is wrong; an error adds where, as an offset into the text and the piece of
text that stands there, when both are known.
-/

set_option autoImplicit false

namespace SpaceCurve

/-- What is wrong with an equation's text. -/
inductive Complaint where
  | notText (kind : String)
  | tooLong
  | blank
  | malformedNumber (text : String)
  | unknownSymbol (name : String)
  | unexpectedCharacter (c : Char)
  | tooDeep
  | strayClosing
  | missingClosing
  | expectedClosing (found : String)
  | unexpectedEnd
  | unexpectedToken (text : String)
  | missingOperator (text : String)
  | notCalled (f : Func)
  | wrongCount (f : Func) (given : Nat)
  deriving DecidableEq, Repr

/-- A complaint about an equation's text and the place it points to. -/
structure SyntaxError where
  complaint : Complaint
  position : Option Nat
  fragment : Option String
  deriving DecidableEq, Repr

namespace Complaint

/-- The complaint in words. -/
def reason : Complaint → String
  | notText kind => "expression must be a string, got " ++ kind
  | tooLong => "expression longer than " ++ toString Lexicon.maxLength ++ " characters"
  | blank => "expression is empty"
  | malformedNumber text => "malformed number '" ++ text ++ "'"
  | unknownSymbol name => "unknown symbol '" ++ name ++ "'"
  | unexpectedCharacter c => "unexpected character '" ++ String.singleton c ++ "'"
  | tooDeep => "expression nested deeper than " ++ toString Lexicon.maxDepth ++ " levels"
  | strayClosing => "unbalanced parentheses: unexpected ')'"
  | missingClosing => "unbalanced parentheses: missing ')'"
  | expectedClosing found => "expected ')' but found '" ++ found ++ "'"
  | unexpectedEnd => "unexpected end of expression"
  | unexpectedToken text => "unexpected '" ++ text ++ "'"
  | missingOperator text => "unexpected '" ++ text ++ "' (missing operator?)"
  | notCalled f => "function '" ++ f.spelling ++ "' must be called with parentheses"
  | wrongCount f given =>
    "function '" ++ f.spelling ++ "' expects " ++ toString f.arity ++
      (if f.arity == 1 then " argument" else " arguments") ++ ", got " ++ toString given

end Complaint

namespace SyntaxError

/-- A complaint about the text as a whole. -/
def overall (complaint : Complaint) : SyntaxError := ⟨complaint, none, none⟩

/-- A complaint about a piece of text at a position. -/
def atText (complaint : Complaint) (position : Nat) (fragment : String) : SyntaxError :=
  ⟨complaint, some position, some fragment⟩

/-- A complaint about a token. -/
def atToken (complaint : Complaint) (t : Token) : SyntaxError :=
  ⟨complaint, some t.position, some t.lexeme.text⟩

/-- A complaint about the end of the text. -/
def atEnd (complaint : Complaint) (position : Nat) : SyntaxError := ⟨complaint, some position, none⟩

/-- The complaint in words, without the place. -/
def reason (e : SyntaxError) : String := e.complaint.reason

/-- The complaint in words, with the place where one is known. -/
def message (e : SyntaxError) : String :=
  match e.position with
  | some p => e.reason ++ " (at position " ++ toString p ++ ")"
  | none => e.reason

end SyntaxError
end SpaceCurve
