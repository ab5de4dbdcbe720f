import SpaceCurve.Lexicon

/-!
# Tokens of an equation

A lexeme is a number, a name of the lexicon, an operator or a mark of punctuation; a token is a
lexeme with the offset at which it begins. Both spellings of the power operator are one lexeme.
-/

set_option autoImplicit false

namespace SpaceCurve

/-- What a piece of equation text means on its own. -/
inductive Lexeme where
  | number (text : List Char)
  | symbol (s : Symbol)
  | operator (o : Operator)
  | opening
  | closing
  | comma
  deriving DecidableEq, Repr

/-- A lexeme and the number of characters before it. -/
structure Token where
  lexeme : Lexeme
  position : Nat
  deriving DecidableEq, Repr

namespace Lexeme

/-- The word for the kind of lexeme. -/
def kind : Lexeme → String
  | number _ => "number"
  | symbol _ => "ident"
  | operator _ => "op"
  | opening => "lparen"
  | closing => "rparen"
  | comma => "comma"

/-- The text of the lexeme, with `^` for the power operator. -/
def text : Lexeme → String
  | number text => String.ofList text
  | symbol s => s.spelling
  | operator o => o.sign
  | opening => "("
  | closing => ")"
  | comma => ","

end Lexeme

namespace Token

/-- The word for the end of an equation in a list of tokens. -/
def endKind : String := "eof"

/-- A token in a table: its kind, its text and its position. -/
structure Row where
  kind : String
  text : String
  position : Nat
  deriving DecidableEq, Repr

/-- The row of the token. -/
def row (t : Token) : Row := ⟨t.lexeme.kind, t.lexeme.text, t.position⟩

/-- The row of the end of an equation, which stands after its last character. -/
def endRow (stop : Nat) : Row := ⟨endKind, "", stop⟩

end Token

end SpaceCurve
