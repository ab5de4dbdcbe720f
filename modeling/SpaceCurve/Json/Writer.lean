import SpaceCurve.Value

/-!
# Writing JSON

A value as JSON text in ASCII: other characters become `\uXXXX` escapes of their UTF-16 units.
Floats are written with their shortest digits, what is not finite as `NaN`, `Infinity` and
`-Infinity`. Without indentation all stands on one line with a blank after each comma and colon;
with an indent each item stands on its own line, and what is empty stays closed up.

Writing has no limits: unlike in reading, no value is nested too deeply for it and no integer has
too many digits.
-/

set_option autoImplicit false

namespace SpaceCurve
namespace Json

/-- The UTF-16 units of a character. -/
def units (c : Char) : List Nat :=
  if c.toNat < 0x10000 then [c.toNat]
  else
    let rest := c.toNat - 0x10000
    [0xd800 + rest / 0x400, 0xdc00 + rest % 0x400]

/-- A character inside a JSON string. -/
def escape (c : Char) : List Char :=
  if c == Text.doubleQuote || c == '\\' then ['\\', c]
  else if c == '\n' then ['\\', 'n']
  else if c == '\r' then ['\\', 'r']
  else if c == '\t' then ['\\', 't']
  else if c.toNat == 0x08 then ['\\', 'b']
  else if c.toNat == 0x0c then ['\\', 'f']
  else if 0x20 ≤ c.toNat && c.toNat < 0x7f then [c]
  else (units c).flatMap fun u => '\\' :: 'u' :: Text.hex 4 u

/-- A JSON string. -/
def quote (s : String) : String :=
  String.ofList (Text.doubleQuote :: s.toList.flatMap escape ++ [Text.doubleQuote])

/-- A JSON number for a float, or the word for one that is not finite. -/
def number (x : Float) : String := Shortest.textWith ⟨"NaN", "Infinity"⟩ x

/-- The line break before an item at a depth. -/
def newline (indent : Option String) (depth : Nat) : String :=
  match indent with
  | none => ""
  | some unit => "\n" ++ String.join (List.replicate depth unit)

/-- Items between brackets. -/
def enclose (indent : Option String) (depth : Nat) (opening closing : String)
    (items : List String) : String :=
  if items.isEmpty then opening ++ closing
  else
    let separator := match indent with
      | none => ", "
      | some _ => "," ++ newline indent (depth + 1)
    opening ++ newline indent (depth + 1) ++ String.intercalate separator items ++
      newline indent depth ++ closing

mutual

/-- The text of a value at a depth. -/
def renderAt (indent : Option String) (depth : Nat) : Value → String
  | .null => "null"
  | .bool true => "true"
  | .bool false => "false"
  | .int i => toString i
  | .real x => number x
  | .text s => quote s
  | .list items => enclose indent depth "[" "]" (renderItems indent (depth + 1) items)
  | .tuple items => enclose indent depth "[" "]" (renderItems indent (depth + 1) items)
  | .record fields =>
    enclose indent depth "\x7b" "\x7d" (renderFields indent (depth + 1) fields)

/-- The texts of list items. -/
def renderItems (indent : Option String) (depth : Nat) : List Value → List String
  | [] => []
  | item :: rest => renderAt indent depth item :: renderItems indent depth rest

/-- The texts of record fields. -/
def renderFields (indent : Option String) (depth : Nat) : List (String × Value) → List String
  | [] => []
  | (name, value) :: rest =>
    (quote name ++ ": " ++ renderAt indent depth value) :: renderFields indent depth rest

end

/-- The text of a value, on one line or with an indent. -/
def render (indent : Option String) (value : Value) : String := renderAt indent 0 value

/-- The indent that a value asks for: none at all, so many blanks, or a text of its own. -/
def indentOf : Value → Except ValueFault (Option String)
  | .null => .ok none
  | .bool b => .ok (some (if b then " " else ""))
  | .int n => .ok (some (String.ofList (List.replicate n.toNat ' ')))
  | .text s => .ok (some s)
  | _ => .error .wrongKind

end Json
end SpaceCurve
