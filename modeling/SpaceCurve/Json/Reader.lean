import SpaceCurve.Machine

/-!
# Reading JSON

Text becomes tokens, and a machine takes one token a step: its stack holds the lists and records
that are open, and it knows what may come next. Besides strict JSON the words `NaN`, `Infinity`
and `-Infinity` are numbers. A number with a fraction or an exponent is a float, any other an
integer. Of a repeated name the last value counts, in the place of the first.
-/

set_option autoImplicit false

namespace SpaceCurve
namespace Json

/-- Why a text is not read. -/
inductive Fault where
  /-- The text is not JSON. -/
  | malformed
  /-- An integer has more digits than are read. -/
  | integerTooLong
  /-- Lists and records are nested deeper than is read. -/
  | tooDeep
  deriving DecidableEq, Repr

/-- A token of JSON text. -/
inductive Token where
  | openList
  | closeList
  | openRecord
  | closeRecord
  | comma
  | colon
  | text (s : String)
  | literal (v : Value)
  | longInteger
  | bad

/-! ## Tokens -/

/-- Whether the character may stand between tokens. -/
def isSpace (c : Char) : Bool := c == ' ' || c == '\t' || c == '\n' || c == '\r'

/-- The value of a hexadecimal digit. -/
def hexDigit? (c : Char) : Option Nat :=
  if '0' ≤ c && c ≤ '9' then some (c.toNat - 0x30)
  else if 'a' ≤ c && c ≤ 'f' then some (c.toNat - 0x57)
  else if 'A' ≤ c && c ≤ 'F' then some (c.toNat - 0x37)
  else none

/-- Four hexadecimal digits, and what follows them. -/
def hexUnit? : List Char → Option (Nat × List Char)
  | a :: b :: c :: d :: rest => do
    let n ← [a, b, c, d].foldlM (fun n x => (hexDigit? x).map (16 * n + ·)) 0
    return (n, rest)
  | _ => none

/-- The character of one UTF-16 unit. A surrogate that stands alone has none of its own: a text here
is made of characters, so all of them become the replacement character `U+FFFD`. This is the one
place where texts that differ are read as the same. -/
def ofUnit (u : Nat) : Char :=
  if 0xd800 ≤ u && u ≤ 0xdfff then Char.ofNat 0xfffd else Char.ofNat u

/-- The character that a `\u` escape denotes, with the second half of a surrogate pair taken from
what follows. -/
def unicodeEscape? (text : List Char) : Option (Char × List Char) := do
  let (high, rest) ← hexUnit? text
  if 0xd800 ≤ high && high ≤ 0xdbff then
    match rest with
    | '\\' :: 'u' :: more =>
      match hexUnit? more with
      | some (low, after) =>
        if 0xdc00 ≤ low && low ≤ 0xdfff then
          return (Char.ofNat (0x10000 + (high - 0xd800) * 0x400 + (low - 0xdc00)), after)
        else return (ofUnit high, rest)
      | none => return (ofUnit high, rest)
    | _ => return (ofUnit high, rest)
  else return (ofUnit high, rest)

/-- The character after a backslash, and what follows. -/
def escaped? : List Char → Option (Char × List Char)
  | 'u' :: rest => unicodeEscape? rest
  | 'b' :: rest => some (Char.ofNat 0x08, rest)
  | 'f' :: rest => some (Char.ofNat 0x0c, rest)
  | 'n' :: rest => some ('\n', rest)
  | 'r' :: rest => some ('\r', rest)
  | 't' :: rest => some ('\t', rest)
  | '/' :: rest => some ('/', rest)
  | '\\' :: rest => some ('\\', rest)
  | c :: rest => if c == Text.doubleQuote then some (c, rest) else none
  | [] => none

/-- The string up to its closing quote, and what follows it. The fuel is the text's length. -/
def stringBody? : Nat → List Char → Option (List Char × List Char)
  | 0, _ => none
  | _, [] => none
  | fuel + 1, c :: rest =>
    if c == Text.doubleQuote then some ([], rest)
    else if c.toNat < 0x20 then none
    else if c == '\\' then do
      let (d, after) ← escaped? rest
      let (body, final) ← stringBody? fuel after
      return (d :: body, final)
    else do
      let (body, final) ← stringBody? fuel rest
      return (c :: body, final)

/-- The digits of a JSON integer without its sign: a zero alone, or no zero in front. -/
def wholePart? : List Char → Option (List Char × List Char)
  | '0' :: rest => some (['0'], rest)
  | c :: rest => if c.isDigit then some ((c :: rest).span Char.isDigit) else none
  | [] => none

/-- The digits after a point, if a point with digits comes next. -/
def fractionPart : List Char → List Char × List Char
  | '.' :: rest =>
    let (ds, after) := rest.span Char.isDigit
    if ds.isEmpty then ([], '.' :: rest) else (ds, after)
  | rest => ([], rest)

/-- The exponent, if one with digits comes next. -/
def exponentPart : List Char → Option Int × List Char
  | c :: rest =>
    if c == 'e' || c == 'E' then
      let (negative, afterSign) := Numeral.splitSign rest
      let (ds, after) := afterSign.span Char.isDigit
      if ds.isEmpty then (none, c :: rest)
      else
        let n : Int := Numeral.ofDigits (ds.map Numeral.digitValue)
        (some (if negative then -n else n), after)
    else (none, c :: rest)
  | [] => (none, [])

/-- A number without its sign. -/
def numberToken? (negative : Bool) (text : List Char) : Option (Token × List Char) := do
  let (whole, afterWhole) ← wholePart? text
  let (fraction, afterFraction) := fractionPart afterWhole
  let (exponent, rest) := exponentPart afterFraction
  let n := Numeral.ofDigits ((whole ++ fraction).map Numeral.digitValue)
  if fraction.isEmpty && exponent.isNone then
    if Numeral.maxIntegerDigits < whole.length then return (.longInteger, rest)
    else return (.literal (.int (if negative then -(n : Int) else n)), rest)
  else
    let size := Numeral.scientific n (exponent.getD 0 - fraction.length)
    return (.literal (.real (if negative then -size else size)), rest)

/-- The words that stand for values. -/
def words : List (String × Value) :=
  [("null", .null), ("true", .bool true), ("false", .bool false),
    ("NaN", .real (0.0 / 0.0)), ("Infinity", .real (1.0 / 0.0)),
    ("-Infinity", .real (-1.0 / 0.0))]

/-- The word at the start of the text, and what follows it. -/
def wordToken? (text : List Char) : Option (Token × List Char) :=
  words.findSome? fun (word, value) =>
    if word.toList.isPrefixOf text then some (.literal value, text.drop word.length) else none

/-- The token at the start of a text that does not begin with white space. -/
def token? (text : List Char) : Option (Token × List Char) :=
  match text with
  | '[' :: rest => some (.openList, rest)
  | ']' :: rest => some (.closeList, rest)
  | '\x7b' :: rest => some (.openRecord, rest)
  | '\x7d' :: rest => some (.closeRecord, rest)
  | ',' :: rest => some (.comma, rest)
  | ':' :: rest => some (.colon, rest)
  | c :: rest =>
    if c == Text.doubleQuote then
      (stringBody? (rest.length + 1) rest).map fun (body, after) =>
        (.text (String.ofList body), after)
    else if c == '-' then (numberToken? true rest).or (wordToken? text)
    else (numberToken? false text).or (wordToken? text)
  | [] => none

/-- The tokens of a text; where no token begins, a bad one ends the list. The fuel is the text's
length. -/
def tokensFrom : Nat → List Char → List Token
  | 0, _ => []
  | fuel + 1, text =>
    match text.dropWhile isSpace with
    | [] => []
    | c :: rest =>
      match token? (c :: rest) with
      | some (t, after) => t :: tokensFrom fuel after
      | none => [.bad]

/-- The tokens of a text. -/
def tokens (text : List Char) : List Token := tokensFrom (text.length + 1) text

/-! ## The machine -/

/-- A list or record that is still open. A record waits for the value of its last name. -/
inductive Frame where
  | list (before : List Value)
  | record (before : Fields) (name : String)

/-- What the machine expects. -/
inductive Expect where
  | value
  | valueOrClose
  | commaOrClose
  | name (before : Fields)
  | nameOrClose
  | colon (before : Fields) (name : String)
  | done (v : Value)

/-- The machine between two tokens. -/
structure State where
  stack : List Frame
  expect : Expect

/-- A value is complete: it goes into the innermost open list or record. -/
def State.accept (v : Value) : List Frame → State
  | [] => ⟨[], .done v⟩
  | .list before :: rest => ⟨.list (before ++ [v]) :: rest, .commaOrClose⟩
  | .record before name :: rest => ⟨.record (before.set name v) name :: rest, .commaOrClose⟩

/-- The start of a value, where at most `limit` lists and records may be open at a time. -/
def State.begin (limit : Nat) (stack : List Frame) : Token → Except Fault State
  | .literal v => .ok (State.accept v stack)
  | .text s => .ok (State.accept (.text s) stack)
  | .openList =>
    if limit ≤ stack.length then .error .tooDeep else .ok ⟨.list [] :: stack, .valueOrClose⟩
  | .openRecord =>
    if limit ≤ stack.length then .error .tooDeep else .ok ⟨stack, .nameOrClose⟩
  | .longInteger => .error .integerTooLong
  | _ => .error .malformed

/-- One step of the machine. -/
def State.step (limit : Nat) (s : State) (t : Token) : Except Fault State :=
  match s.expect, t, s.stack with
  | .value, t, stack => State.begin limit stack t
  | .valueOrClose, .closeList, .list before :: rest => .ok (State.accept (.list before) rest)
  | .valueOrClose, t, stack => State.begin limit stack t
  | .commaOrClose, .comma, .list before :: rest => .ok ⟨.list before :: rest, .value⟩
  | .commaOrClose, .closeList, .list before :: rest => .ok (State.accept (.list before) rest)
  | .commaOrClose, .comma, .record before _ :: rest => .ok ⟨rest, .name before⟩
  | .commaOrClose, .closeRecord, .record before _ :: rest =>
    .ok (State.accept (.record before) rest)
  | .nameOrClose, .closeRecord, stack => .ok (State.accept (.record []) stack)
  | .nameOrClose, .text name, stack => .ok ⟨stack, .colon [] name⟩
  | .name before, .text name, stack => .ok ⟨stack, .colon before name⟩
  | .colon before name, .colon, stack => .ok ⟨.record before name :: stack, .value⟩
  | _, _, _ => .error .malformed

/-- The value that a text denotes, with at most `limit` lists and records open at a time. -/
def readWithin (limit : Nat) (text : String) : Except Fault Value := do
  let final ← (tokens text.toList).foldlM (State.step limit) ⟨[], .value⟩
  match final.expect with
  | .done v => .ok v
  | _ => .error .malformed

/-- The value that a text denotes. -/
def read [Machine] (text : String) : Except Fault Value := readWithin Machine.maxDepth text

end Json
end SpaceCurve
