import SpaceCurve.Json.Reader
import SpaceCurve.Policy.Validation

/-!
# Policy files

A policy for validation in a file: UTF-8 text, JSON, one record of settings. `Path.tidy` writes a
path in its shortest form; `PolicyFile.load` reads the file that stands there. Where the text comes
from is left to a function from paths to bytes.
-/

set_option autoImplicit false

namespace SpaceCurve
namespace Path

/-- The slashes at the start that count: two stay two, any other number of them is one. -/
def root (path : List Char) : List Char :=
  match (path.takeWhile (· == '/')).length with
  | 0 => []
  | 2 => ['/', '/']
  | _ => ['/']

/-- The names between the slashes. -/
def parts (path : List Char) : List (List Char) :=
  (path.splitOn '/').filter fun part => part != [] && part != ['.']

/-- The path without repeated slashes and without steps that stay in place. -/
def tidy (path : String) : String :=
  let body := root path.toList ++ List.intercalate ['/'] (parts path.toList)
  if body.isEmpty then "." else String.ofList body

end Path

/-- Why a file holds no policy. -/
inductive PolicyFileFault where
  /-- No file can have such a path. -/
  | impossiblePath
  /-- There is no such file, or it is not JSON, for the given cause. -/
  | unreadable (path : String) (cause : String)
  /-- The bytes are not UTF-8. -/
  | notText
  /-- Lists and records are nested too deeply. -/
  | tooDeep
  /-- An integer has too many digits. -/
  | integerTooLong
  /-- The JSON value is not a record. -/
  | notRecord (path : String)
  /-- The settings make no policy. -/
  | policy (cause : PolicyFault)

namespace PolicyFileFault

/-- The complaint about the policy; the other faults are not about what it says. -/
def report? : PolicyFileFault → Option String
  | unreadable path cause => some ("Could not read policy file " ++ path ++ ": " ++ cause)
  | notRecord path => some ("Policy file " ++ path ++ " must contain a JSON object")
  | policy (.invalid task problems) => some (PolicyFault.invalidMessage task problems)
  | _ => none

end PolicyFileFault

namespace PolicyFile

variable [Machine]

/-- The settings in the text of the file at a path. -/
def settings (path text : String) : Except PolicyFileFault Fields :=
  match Json.read text with
  | .ok (.record fields) => .ok fields
  | .ok _ => .error (.notRecord path)
  | .error .malformed => .error (.unreadable path (Machine.complaint path (some text.toUTF8)))
  | .error .tooDeep => .error .tooDeep
  | .error .integerTooLong => .error .integerTooLong

/-- The policy in the bytes of the file at a path, if there is one. -/
def ofBytes (path : String) : Option ByteArray → Except PolicyFileFault ValidationPolicy
  | none => .error (.unreadable path (Machine.complaint path none))
  | some bytes =>
    match String.fromUTF8? bytes with
    | none => .error .notText
    | some text =>
      (settings path text).bind fun fields =>
        (ValidationPolicy.ofSettings fields).mapError .policy

/-- The policy in the file at a path. -/
def load (read : String → Option ByteArray) (path : String) :
    Except PolicyFileFault ValidationPolicy :=
  if path.toList.any (·.toNat == 0) then .error .impossiblePath
  else ofBytes (Path.tidy path) (read (Path.tidy path))

end PolicyFile
end SpaceCurve
