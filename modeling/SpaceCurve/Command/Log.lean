import SpaceCurve.Validation

/-!
# The log

What is written to the log of a verbose run: a line for each event, with its level and the part of
the program that it comes from, and a line for the verdict. Warnings about floating-point exceptions
are written to the same place, in every run.
-/

set_option autoImplicit false

namespace SpaceCurve
namespace Log

/-- A line of the log. -/
def line (level part text : String) : String := level ++ " " ++ part ++ ": " ++ text

/-- A source that was no equation. -/
def rejected (source : Value) (e : SyntaxError) : String :=
  line "DEBUG" "curvespec.expression"
    ("Rejected expression " ++ source.quoted ++ ": " ++ e.message)

/-- A curve some of whose points are not finite. -/
def nonFinite (sources : Triple String) (count total : Nat) : String :=
  line "DEBUG" "curvespec.curve"
    ("Curve " ++ (Value.tuple (sources.toList.map .text)).quoted ++ " has " ++ toString count ++
      " non-finite sample(s) of " ++ toString total)

/-- A check that failed. -/
def failed (f : Failure) : String :=
  line "DEBUG" "validity.runner" (f.check.name ++ " check failed: " ++ f.message)

/-- The text for an event, with its line ends. A warning does not go through the log, and has its
words from the machine. -/
def ofEvent [Machine] : Event → String
  | .rejected source e => rejected source e ++ "\n"
  | .nonFinite sources count total => nonFinite sources count total ++ "\n"
  | .failed f => failed f ++ "\n"
  | .warned w => Machine.notice w

/-- Whether the event is written at all: warnings are, the log only if it is wanted. -/
def isShown (verbose : Bool) (e : Event) : Bool := verbose || (e.warning?).isSome

/-- The line for a verdict. -/
def ofVerdict (v : Verdict) : String :=
  line "INFO" "validity.runner"
    ("Validated curve (" ++ v.status ++ "): " ++ toString v.diagnostics.length ++
      " diagnostic(s), " ++ toString v.warnings.length ++ " warning(s)")

/-- What is written to standard error while a curve is validated. -/
def ofRun [Machine] (verbose : Bool) (events : List Event) (v : Verdict) : String :=
  String.join ((events.filter (isShown verbose)).map ofEvent) ++
    (if verbose then ofVerdict v ++ "\n" else "")

end Log
end SpaceCurve
