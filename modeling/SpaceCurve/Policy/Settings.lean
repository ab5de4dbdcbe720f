import SpaceCurve.Value

/-!
# Settings

Policies are read from named values that people write by hand. An older name of a setting still
counts when the current one is absent, names that mean nothing are dropped, and the settings that
must be positive are checked one by one.
-/

set_option autoImplicit false

namespace SpaceCurve

/-- What is wrong with a setting. -/
inductive Problem where
  | missing (name : String)
  | null (name : String)
  | notPositive (name : String) (value : Value)
  | empty (name : String)

/-- The problem in words. -/
def Problem.message : Problem → String
  | missing name => "Missing required field: " ++ name
  | null name => "Required field is None: " ++ name
  | notPositive name value => name ++ " must be positive, got " ++ value.shown
  | empty name => name ++ " must not be empty"

/-- Why settings make no policy. -/
inductive PolicyFault where
  /-- A setting cannot be converted, compared or shown. -/
  | value (cause : ValueFault)
  /-- The policy for a task has settings that are out of range. -/
  | invalid (task : String) (problems : List Problem)

/-- The text about a policy with settings out of range. -/
def PolicyFault.invalidMessage (task : String) (problems : List Problem) : String :=
  "Invalid " ++ task ++ " policy: " ++ String.intercalate "; " (problems.map Problem.message)

namespace Settings

/-- An older name of a setting and its current name. -/
structure Alias where
  legacy : String
  canonical : String
  deriving DecidableEq, Repr

/-- The value under the older name moves to the current one, unless that is in use. -/
def rename (fields : Fields) (a : Alias) : Fields :=
  match fields.get? a.legacy with
  | some v =>
    if fields.has a.canonical then fields else fields.erase a.legacy ++ [(a.canonical, v)]
  | none => fields

/-- The aliases are applied one after another. -/
def renameAll (aliases : List Alias) (fields : Fields) : Fields := aliases.foldl rename fields

/-- The settings whose names are known. -/
def keep (names : List String) (fields : Fields) : Fields :=
  fields.filter fun f => names.contains f.1

/-- What every object knows about itself, whatever is stored under the names. None of it is a
number. -/
def fixed : Fields := [("__class__", .record []), ("__dict__", .record [])]

/-- What every object can do, unless something else is stored under the names. None of it is a
number; what is missing is a way to tabulate objects that can change. -/
def inherent : Fields :=
  ("__hash__", .null) ::
    ["__delattr__", "__dir__", "__doc__", "__eq__", "__format__", "__ge__", "__getattribute__",
      "__getstate__", "__gt__", "__init__", "__init_subclass__", "__le__", "__lt__", "__ne__",
      "__new__", "__reduce__", "__reduce_ex__", "__repr__", "__setattr__", "__sizeof__", "__str__",
      "__subclasshook__"].map fun name => (name, .record [])

/-- What an object with some fields has under a name. -/
def lookup (fields : Fields) (name : String) : Option Value :=
  (fixed.get? name).or ((fields.get? name).or (inherent.get? name))

/-- What is wrong with a setting that must be positive. There is no complaint about an integer that
has too many digits to be shown. -/
def problem? (fields : Fields) (name : String) : Except ValueFault (Option Problem) :=
  match lookup fields name with
  | none => .ok (some (.missing name))
  | some .null => .ok (some (.null name))
  | some v =>
    (v.isAbove (.whole 0)).bind fun positive =>
      if positive then .ok none else v.checkShown.map fun _ => some (.notPositive name v)

/-- What is wrong with the settings that must be positive. -/
def problems (fields : Fields) : List String → Except ValueFault (List Problem)
  | [] => .ok []
  | name :: rest =>
    (problem? fields name).bind fun p => (problems fields rest).map fun ps => p.toList ++ ps

/-- A setting that is converted when it is given, and has a default otherwise. -/
def convert (fields : Fields) (name : String) (default : Value)
    (conversion : Value → Except ValueFault Value) : Except ValueFault Value :=
  match fields.get? name with
  | some v => conversion v
  | none => .ok default

end Settings
end SpaceCurve
