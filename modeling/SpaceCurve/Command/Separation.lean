import SpaceCurve.Command.Flag

/-!
# Equations among the arguments

Equations such as `-sin(3*t)` begin with a minus sign and would be read as flags. `separate` moves
them behind a `--`: of the arguments of a command that takes equations, only those that are exactly
a flag, a long flag with a value attached, or the value of a flag stay in front.
-/

set_option autoImplicit false

namespace SpaceCurve
namespace Command

/-- The argument that ends the flags. -/
def separator : String := "--"

/-- A use of a flag: which one, and whether its value is attached. -/
structure FlagUse where
  flag : Flag
  hasValue : Bool
  deriving DecidableEq, Repr

/-- The part of an argument before the first `=`, and whether there is one. -/
def splitName (arg : String) : String × Bool :=
  let cs := arg.toList
  (String.ofList (cs.takeWhile (· != '=')), cs.contains '=')

/-- The use of a flag that an argument is. Only long flags may have a value attached. -/
def flagUse? (flags : List Flag) (arg : String) : Option FlagUse :=
  let (name, attached) := if arg.startsWith separator then splitName arg else (arg, false)
  (Flag.ofName? flags name).map fun f => ⟨f, attached⟩

/-- Whether the flag still lacks its value. -/
def FlagUse.lacksValue (u : FlagUse) : Bool := u.flag.takesValue && !u.hasValue

/-- The arguments that are flags or values of flags, and the others. -/
def partition (flags : List Flag) : List String → List String × List String
  | [] => ([], [])
  | arg :: rest =>
    if arg == separator then ([], rest)
    else
      match flagUse? flags arg with
      | none =>
        let (front, equations) := partition flags rest
        (front, arg :: equations)
      | some u =>
        if u.lacksValue then
          match rest with
          | [] => ([arg], [])
          | value :: after =>
            let (front, equations) := partition flags after
            (arg :: value :: front, equations)
        else
          let (front, equations) := partition flags rest
          (arg :: front, equations)

/-- Whether an argument looks like a flag. -/
def looksLikeFlag (arg : String) : Bool := arg.startsWith "-"

/-- The command that a word gives, if it takes equations. -/
def equationCommand? (word : String) : Option Command :=
  (ofName? word).filter takesEquations

/-- The arguments with the equations moved behind a separator. -/
def separate (args : List String) : List String :=
  match args.dropWhile looksLikeFlag with
  | [] => args
  | word :: rest =>
    match equationCommand? word with
    | none => args
    | some c =>
      let (front, equations) := partition c.flags rest
      args.takeWhile looksLikeFlag ++ word :: front ++ separator :: equations

end Command
end SpaceCurve
