import SpaceCurve.Decimal.Binary64
import SpaceCurve.Decimal.Numeral
import SpaceCurve.Decimal.Shortest
import SpaceCurve.Text.Quoted

/-!
# Values of any kind

Sources, parameters and policy settings arrive with whatever kind they were written in. `Value` is
that loosely typed data: its kinds, what counts as true, how it converts to a number, how it
compares, how messages show it, and when two values are the same.
-/

set_option autoImplicit false

namespace SpaceCurve

/-- A loosely typed value. A `tuple` is a list that was fixed when it was stored. -/
inductive Value where
  | null
  | bool (b : Bool)
  | int (i : Int)
  | real (x : Float)
  | text (s : String)
  | list (items : List Value)
  | tuple (items : List Value)
  | record (fields : List (String × Value))
  deriving Inhabited

/-- Named values in the order in which they were first given; each name stands once. -/
abbrev Fields := List (String × Value)

/-- Why a value cannot be used as asked. What is said about it is not the program's own text, so that
there is no message here. -/
inductive ValueFault where
  /-- The operation is not defined for values of this kind. -/
  | wrongKind
  /-- A number does not fit the type asked for. -/
  | outOfRange
  /-- The kind is right and the content is not. -/
  | unreadable
  /-- The value has no place in array arithmetic: text, or an integer too long for a machine
  word. -/
  | unfit
  /-- An array would need more room than there is. -/
  | noRoom
  /-- The value has no part of the name that is asked for. -/
  | lacking
  deriving DecidableEq, Repr

namespace Fields

/-- The value under a name. -/
def get? (fields : Fields) (name : String) : Option Value := List.lookup name fields

/-- Whether the name is in use. -/
def has (fields : Fields) (name : String) : Bool := fields.any (·.1 == name)

/-- The fields with a value stored: in the place of the old one, or at the end. -/
def set (fields : Fields) (name : String) (value : Value) : Fields :=
  if fields.has name then fields.map fun f => if f.1 == name then (name, value) else f
  else fields ++ [(name, value)]

/-- The fields without a name. -/
def erase (fields : Fields) (name : String) : Fields := fields.filter (·.1 != name)

end Fields

namespace Value

/-- The word for the value's kind. -/
def kind : Value → String
  | null => "NoneType"
  | bool _ => "bool"
  | int _ => "int"
  | real _ => "float"
  | text _ => "str"
  | list _ => "list"
  | tuple _ => "tuple"
  | record _ => "dict"

/-- Whether the value counts as true: anything but nothing, zero and what is empty. -/
def truthy : Value → Bool
  | null => false
  | bool b => b
  | int i => i != 0
  | real x => !(x == 0.0)
  | text s => !s.isEmpty
  | list items => !items.isEmpty
  | tuple items => !items.isEmpty
  | record fields => !fields.isEmpty

/-! ## Numbers -/

/-- A number, exact or floating. -/
inductive Number where
  | whole (i : Int)
  | real (x : Float)

/-- Exact order; nothing is less than `nan` or greater. -/
def Number.lt : Number → Number → Bool
  | .whole i, .whole j => i < j
  | .real x, .real y => x < y
  | .real x, .whole j => Binary64.compareInt? x j == some .lt
  | .whole i, .real y => Binary64.compareInt? y i == some .gt

/-- Equality of numbers by size; `nan` equals nothing. -/
def Number.equals : Number → Number → Bool
  | .whole i, .whole j => i == j
  | .real x, .real y => x == y
  | .real x, .whole j => Binary64.compareInt? x j == some .eq
  | .whole i, .real y => Binary64.compareInt? y i == some .eq

/-- Sameness of numbers: equality, and `nan` is the same as itself. -/
def Number.same : Number → Number → Bool
  | .real x, .real y => x == y || (x.isNaN && y.isNaN)
  | m, n => m.equals n

/-- The value as a number to compare; truth values are zero and one. -/
def number : Value → Except ValueFault Number
  | bool b => .ok (.whole (if b then 1 else 0))
  | int i => .ok (.whole i)
  | real x => .ok (.real x)
  | _ => .error .wrongKind

/-- Whether the value is less than a bound. -/
def isBelow (value : Value) (bound : Number) : Except ValueFault Bool :=
  value.number.map fun n => n.lt bound

/-- Whether the value is greater than a bound. -/
def isAbove (value : Value) (bound : Number) : Except ValueFault Bool :=
  value.number.map fun n => bound.lt n

/-- The value as a float: numbers round, text is read, a truth value is zero or one. -/
def toFloat : Value → Except ValueFault Float
  | bool b => .ok (if b then 1.0 else 0.0)
  | int i =>
    match Binary64.ofInt? i with
    | some x => .ok x
    | none => .error .outOfRange
  | real x => .ok x
  | text s =>
    match Numeral.float? s with
    | some x => .ok x
    | none => .error .unreadable
  | _ => .error .wrongKind

/-- The value as an integer: floats lose their fraction, text is read. -/
def toInt : Value → Except ValueFault Int
  | bool b => .ok (if b then 1 else 0)
  | int i => .ok i
  | real x =>
    match Binary64.truncate? x with
    | some i => .ok i
    | none => .error (if x.isNaN then .unreadable else .outOfRange)
  | text s =>
    match Numeral.integer? s with
    | some i => .ok i
    | none => .error .unreadable
  | _ => .error .wrongKind

/-- A conversion with a substitute for what cannot be converted. A number that does not fit is
no reason to substitute. -/
def orElse {α : Type} (converted : Except ValueFault α) (wrap : α → Value) (default : Value) :
    Except ValueFault Value :=
  match converted with
  | .ok a => .ok (wrap a)
  | .error .outOfRange => .error .outOfRange
  | .error _ => .ok default

/-- The value as a float, or the default where it is missing or no number. -/
def coerceFloat (value default : Value) : Except ValueFault Value :=
  match value with
  | null => .ok default
  | v => orElse v.toFloat real default

/-- The value as an integer, or the default where it is missing, a truth value or no number. -/
def coerceInt (value default : Value) : Except ValueFault Value :=
  match value with
  | null => .ok default
  | bool _ => .ok default
  | v => orElse v.toInt int default

/-! ## Parts -/

/-- What the value holds, one by one: items, characters, or names. -/
def elements : Value → Except ValueFault (List Value)
  | text s => .ok (s.toList.map fun c => text (String.singleton c))
  | list items => .ok items
  | tuple items => .ok items
  | record fields => .ok (fields.map fun f => text f.1)
  | _ => .error .wrongKind

/-- Whether the value can be looked up in a table by name: lists and records cannot. -/
def isKey : Value → Bool
  | list _ => false
  | record _ => false
  | _ => true

/-! ## Showing values -/

mutual

/-- The value as a message shows it inside another one: text is quoted. -/
def quoted : Value → String
  | null => "None"
  | bool true => "True"
  | bool false => "False"
  | int i => toString i
  | real x => Shortest.text x
  | text s => Text.quoted s
  | list items => "[" ++ String.intercalate ", " (quotedItems items) ++ "]"
  | tuple [item] => "(" ++ quoted item ++ ",)"
  | tuple items => "(" ++ String.intercalate ", " (quotedItems items) ++ ")"
  | record fields => "\x7b" ++ String.intercalate ", " (quotedFields fields) ++ "\x7d"

/-- The items, each as it is shown inside a list. -/
def quotedItems : List Value → List String
  | [] => []
  | item :: rest => quoted item :: quotedItems rest

/-- The fields, each as it is shown inside a record. -/
def quotedFields : List (String × Value) → List String
  | [] => []
  | (name, value) :: rest => (Text.quoted name ++ ": " ++ quoted value) :: quotedFields rest

end

/-- The value as a message shows it: text stands as it is. -/
def shown : Value → String
  | text s => s
  | v => v.quoted

/-- A number is not shown in a message if it is an integer with too many digits. -/
def checkShown : Value → Except ValueFault Unit
  | int i => if i.natAbs < Nat.pow 10 Numeral.maxIntegerDigits then .ok () else .error .unreadable
  | _ => .ok ()

/-! ## Equality -/

mutual

/-- Whether two values agree: numbers as a relation says, the rest by content, records regardless
of the order of their fields. -/
def agrees (numbers : Number → Number → Bool) : Value → Value → Bool
  | null, null => true
  | text s, text t => s == t
  | list xs, list ys => agreesItems numbers xs ys
  | tuple xs, tuple ys => agreesItems numbers xs ys
  | record fs, record gs => fs.length == gs.length && agreesFields numbers fs gs
  | v, w =>
    match v.number, w.number with
    | .ok m, .ok n => numbers m n
    | _, _ => false

/-- Whether two lists agree item by item. -/
def agreesItems (numbers : Number → Number → Bool) : List Value → List Value → Bool
  | [], [] => true
  | x :: xs, y :: ys => agrees numbers x y && agreesItems numbers xs ys
  | _, _ => false

/-- Whether each of the fields is found in the others with a value that agrees. -/
def agreesFields (numbers : Number → Number → Bool) : List (String × Value) → Fields → Bool
  | [], _ => true
  | (name, v) :: rest, others =>
    match others.get? name with
    | some w => agrees numbers v w && agreesFields numbers rest others
    | none => false

end

/-- Whether two values are equal: what holds a `nan` equals nothing. -/
def equals (v w : Value) : Bool := agrees Number.equals v w

/-- Whether two values are the same: as `equals`, but a `nan` is the same as itself. -/
def same (v w : Value) : Bool := agrees Number.same v w

end Value

namespace Fields

/-- Whether all fields are the same in others. -/
def same (fields others : Fields) : Bool := Value.agreesFields Value.Number.same fields others

/-- Whether all fields have equals in others. -/
def equals (fields others : Fields) : Bool := Value.agreesFields Value.Number.equals fields others

end Fields
end SpaceCurve
