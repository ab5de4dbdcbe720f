import SpaceCurve.Text.Printable

/-!
# Quoted text

Text between quotes on one line, as messages and logs show it. The single quote marks both ends
unless the text holds single quotes and no double ones. The quote in use and the backslash are
escaped, tab and line ends have short escapes, and what is not printable is shown by its code in
two, four or eight hexadecimal digits.
-/

set_option autoImplicit false

namespace SpaceCurve
namespace Text

/-- The quote that is used by default. -/
def singleQuote : Char := Char.ofNat 0x27

/-- The quote for a text with single quotes and no double ones. -/
def doubleQuote : Char := Char.ofNat 0x22

/-- The last `width` hexadecimal digits of a number, in lower case. -/
def hex (width n : Nat) : List Char :=
  (List.range width).reverse.map fun i => Nat.digitChar (n / Nat.pow 16 i % 16)

/-- The quote that encloses a text. -/
def quoteFor (text : List Char) : Char :=
  if text.contains singleQuote && !text.contains doubleQuote then doubleQuote else singleQuote

/-- A character as it stands between the quotes. -/
def escape (quote c : Char) : List Char :=
  if c == quote || c == '\\' then ['\\', c]
  else if c == '\t' then ['\\', 't']
  else if c == '\n' then ['\\', 'n']
  else if c == '\r' then ['\\', 'r']
  else if isPrintable c then [c]
  else if c.toNat < 0x100 then '\\' :: 'x' :: hex 2 c.toNat
  else if c.toNat < 0x10000 then '\\' :: 'u' :: hex 4 c.toNat
  else '\\' :: 'U' :: hex 8 c.toNat

/-- The text between quotes. -/
def quoted (text : String) : String :=
  let quote := quoteFor text.toList
  String.ofList (quote :: text.toList.flatMap (escape quote) ++ [quote])

end Text
end SpaceCurve
