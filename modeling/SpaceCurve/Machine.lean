import SpaceCurve.Value

/-!
# The machine

What a run depends on besides its arguments and its files: how much room there is, how deeply texts
may be nested, and the wording of what is not the program's own text. The values of a `Machine` are
never looked at; what holds of a run holds on every machine.
-/

set_option autoImplicit false

namespace SpaceCurve

/-- A floating-point exception of array arithmetic that does not pass in silence. -/
inductive FloatWarning where
  /-- A product has no value: zero times an infinity. -/
  | invalid
  /-- A difference of finite numbers is not finite. -/
  | overflow
  deriving DecidableEq, Repr

/-- The machine that the program runs on. -/
class Machine where
  /-- Whether there is room for so many parameter values; if not, how making them fails. -/
  checkRoom : Nat → Except ValueFault Unit
  /-- There is never room for more values than floats can count. -/
  le_of_checkRoom : ∀ n, checkRoom n = .ok () → n ≤ Nat.pow 2 52
  /-- The most lists and records that may be open at a time while a text is read. -/
  maxDepth : Nat
  /-- What is written about a floating-point exception, line ends included. -/
  notice : FloatWarning → String
  /-- Why there is no JSON at a path: no file can be read there, or its bytes are something else. -/
  complaint : String → Option ByteArray → String
  /-- How to use a command, or the program, of some title; line ends included. -/
  usage : String → String
  /-- The help on a command, or on the program, of some title; line ends included. -/
  help : String → String

namespace Machine

/-- A machine with room for all that floats can count, and few words. -/
@[reducible] def ample : Machine where
  checkRoom n := if n ≤ Nat.pow 2 52 then .ok () else .error .noRoom
  le_of_checkRoom n h := by
    split at h
    · assumption
    · cases h
  maxDepth := 1000
  notice
    | .invalid => "Warning: invalid value\n"
    | .overflow => "Warning: overflow\n"
  complaint _ bytes? := if bytes?.isSome then "no JSON" else "no file"
  usage title := "usage: " ++ title ++ " ...\n"
  help title := "usage: " ++ title ++ " ...\n"

end Machine
end SpaceCurve
