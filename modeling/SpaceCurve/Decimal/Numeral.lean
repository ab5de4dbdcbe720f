import SpaceCurve.Text.Blank
import SpaceCurve.Text.Numeric

/-!
# Reading numerals

`decimal` is the value of digits with a point somewhere among them. `float?` and `integer?` read
a numeral out of loose text: white space around it is ignored, digits of all scripts count, a
single underscore may stand between two digits, a sign may come first. A float may also have an
exponent, or be one of the words `inf`, `infinity` and `nan` in any case.
-/

set_option autoImplicit false

namespace SpaceCurve
namespace Numeral

/-- The number that a list of digit values denotes. -/
def ofDigits (ds : List Nat) : Nat := ds.foldl (fun n d => 10 * n + d) 0

/-- The value of an ASCII digit; other characters count as zero. -/
def digitValue (c : Char) : Nat := if c.isDigit then c.toNat - 0x30 else 0

/-- `n · 10^e` rounded to the nearest float. -/
def scientific (n : Nat) (e : Int) : Float :=
  if 0 ≤ e then Float.ofScientific n false e.toNat else Float.ofScientific n true (-e).toNat

/-- The value of ASCII digits with at most one point, such as `12`, `.5` and `3.`. -/
def decimal (text : List Char) : Float :=
  let whole := text.takeWhile (· != '.')
  let fraction := (text.dropWhile (· != '.')).drop 1
  scientific (ofDigits ((whole ++ fraction).map digitValue)) (-fraction.length)

/-! ## Loose text -/

/-- White space around a numeral: blanks other than the four ASCII separators. -/
def isPadding (c : Char) : Bool :=
  Text.isBlank c && !(0x1c ≤ c.toNat && c.toNat ≤ 0x1f)

/-- The text without padding at either end. -/
def unpad (text : List Char) : List Char :=
  ((text.dropWhile isPadding).reverse.dropWhile isPadding).reverse

/-- Digits of all scripts become ASCII digits; other characters stay. -/
def toAscii (c : Char) : Char :=
  match Text.decimalDigit? c with
  | some d => Char.ofNat (0x30 + d)
  | none => c

/-- The text without its underscores, each of which has to stand between two digits. The flag says
whether the character before was a digit. -/
def dropUnderscores : Bool → List Char → Option (List Char)
  | _, [] => some []
  | afterDigit, '_' :: rest =>
    match rest with
    | c :: _ => if afterDigit && c.isDigit then dropUnderscores false rest else none
    | [] => none
  | _, c :: rest => (dropUnderscores c.isDigit rest).map (c :: ·)

/-- A sign in front, and what follows it. -/
def splitSign : List Char → Bool × List Char
  | '-' :: rest => (true, rest)
  | '+' :: rest => (false, rest)
  | rest => (false, rest)

/-- The numeral's characters in ASCII, without padding, underscores and sign. -/
def prepare (text : List Char) : Option (Bool × List Char) :=
  (dropUnderscores false ((unpad text).map toAscii)).map splitSign

/-- The digits at the start, and the rest. -/
def spanDigits (text : List Char) : List Char × List Char := text.span Char.isDigit

/-- The exponent after `e` or `E`; nothing at all means zero. -/
def exponent? : List Char → Option Int
  | [] => some 0
  | c :: rest =>
    if c == 'e' || c == 'E' then
      let (negative, ds) := splitSign rest
      if ds.isEmpty || !ds.all Char.isDigit then none
      else
        let n := ofDigits (ds.map digitValue)
        some (if negative then -(n : Int) else n)
    else none

/-- The size of a float without its sign. -/
def size? (text : List Char) : Option Float :=
  let (whole, afterWhole) := spanDigits text
  let (fraction, afterFraction) := match afterWhole with
    | '.' :: rest => spanDigits rest
    | rest => ([], rest)
  if whole.isEmpty && fraction.isEmpty then none
  else (exponent? afterFraction).map fun e =>
    scientific (ofDigits ((whole ++ fraction).map digitValue)) (e - fraction.length)

/-- The float that a text denotes, rounded to nearest; beyond the range it is infinite. -/
def float? (text : String) : Option Float := do
  let (negative, body) ← prepare text.toList
  let size ← match String.ofList (body.map Char.toLower) with
    | "inf" => some (1.0 / 0.0)
    | "infinity" => some (1.0 / 0.0)
    | "nan" => some (0.0 / 0.0)
    | _ => size? body
  return if negative then -size else size

/-- The longest text of digits that is read as an integer. -/
def maxIntegerDigits : Nat := 4300

/-- The integer that a text of decimal digits denotes. -/
def integer? (text : String) : Option Int := do
  let (negative, ds) ← prepare text.toList
  if ds.isEmpty || !ds.all Char.isDigit || maxIntegerDigits < ds.length then none
  else
    let n := ofDigits (ds.map digitValue)
    return if negative then -(n : Int) else n

end Numeral
end SpaceCurve
