import SpaceCurve.Command.Run

/-!
# The program

Runs the command line: reads the policy file that the arguments name, writes what the run leaves
behind, and ends with its status.
-/

set_option autoImplicit false

open SpaceCurve

/-- The bytes of a file, if it can be read. -/
def readFile? (path : String) : IO (Option ByteArray) := do
  try
    return some (← IO.FS.readBinFile path)
  catch _ =>
    return none

/-- Runs the program on a machine and gives its status. -/
def runOn [Machine] (args : List String) : IO UInt32 := do
  let bytes ← match Command.policyPath? args with
    | some path => readFile? (Path.tidy path)
    | none => pure none
  match Command.runLine (fun _ => bytes) args with
  | .ok outcome =>
    IO.print outcome.stdout
    IO.eprint outcome.stderr
    return UInt32.ofNat outcome.code
  | .error _ =>
    IO.eprintln "Error: the run was cut off"
    return 1

/-- Runs the program and gives its status. -/
def main (args : List String) : IO UInt32 := @runOn .ample args
