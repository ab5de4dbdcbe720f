/-!
# Commands and their flags

The words of the command line: four commands, the flags that each of them knows, and the names of
the words that it takes besides.
-/

set_option autoImplicit false

namespace SpaceCurve

/-- What a flag asks for. -/
inductive Flag where
  | help
  | version
  | verbose
  | policy
  | lenient
  | json
  | parameter
  | tree
  | segments
  deriving DecidableEq, Repr

namespace Flag

/-- The spellings of the flag. -/
def names : Flag → List String
  | help => ["-h", "--help"]
  | version => ["--version"]
  | verbose => ["--verbose", "-v"]
  | policy => ["--policy"]
  | lenient => ["--lenient"]
  | json => ["--json"]
  | parameter => ["-t"]
  | tree => ["--ast"]
  | segments => ["--segments", "-s"]

/-- Whether a value follows the flag. -/
def takesValue : Flag → Bool
  | policy => true
  | parameter => true
  | segments => true
  | _ => false

/-- The flag as messages name it. -/
def title (f : Flag) : String := String.intercalate "/" f.names

/-- The spellings of several flags, each with its flag. -/
def table (flags : List Flag) : List (String × Flag) :=
  flags.flatMap fun f => f.names.map fun name => (name, f)

/-- The flag with a spelling, among several. -/
def ofName? (flags : List Flag) (name : String) : Option Flag := (table flags).lookup name

end Flag

/-- What the program can be told to do. -/
inductive Command where
  | validate
  | evaluate
  | presets
  | sample
  deriving DecidableEq, Repr

namespace Command

/-- The name of the program. -/
def program : String := "knot-curves"

/-- The version of the program. -/
def version : String := "0.1.0"

/-- All commands. -/
def all : List Command := [.validate, .evaluate, .presets, .sample]

/-- The word that gives the command. -/
def name : Command → String
  | validate => "validate"
  | evaluate => "evaluate"
  | presets => "presets"
  | sample => "sample"

/-- The command that a word gives. -/
def ofName? (name : String) : Option Command := all.find? fun c => c.name == name

/-- The flags that may stand before a command. -/
def commonFlags : List Flag := [.help, .version, .verbose]

/-- The flags of the command. -/
def flags : Command → List Flag
  | validate => [.help, .policy, .lenient, .json]
  | evaluate => [.help, .parameter, .tree]
  | presets => [.help]
  | sample => [.help, .segments]

/-- The names of the words that the command takes. -/
def words : Command → List String
  | validate => ["x", "y", "z"]
  | evaluate => ["expression"]
  | presets => []
  | sample => ["name"]

/-- Whether the words of the command are equations, which may look like flags. -/
def takesEquations : Command → Bool
  | validate => true
  | evaluate => true
  | _ => false

/-- The program as messages name it while it reads the arguments of a command. -/
def title : Option Command → String
  | none => program
  | some c => program ++ " " ++ c.name

end Command
end SpaceCurve
