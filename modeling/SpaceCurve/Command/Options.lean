import SpaceCurve.Command.Separation
import SpaceCurve.Text.Numeric
import SpaceCurve.Value

/-!
# Reading arguments

Every argument is classified first: as a flag, which may be abbreviated where that is unique and
may have a value attached, as something that looks like a flag and is none, as a plain word, or as
the separator, after which all arguments are plain. `read` then goes through them in order: flags
take their values, plain words fill the places of the command, and the rest is left over.
-/

set_option autoImplicit false

namespace SpaceCurve
namespace Command

/-! ## Complaints -/

/-- What is wrong with the arguments. -/
inductive ArgumentError where
  | ambiguous (arg : String) (candidates : List String)
  | expectsValue (f : Flag)
  | ignoresValue (f : Flag) (value : String)
  | badValue (f : Flag) (expected : String) (value : String)
  | missing (words : List String)
  | unrecognized (args : List String)
  | unknownCommand (word : String)
  deriving DecidableEq, Repr

/-- What is wrong, in words. -/
def ArgumentError.message : ArgumentError → String
  | ambiguous arg candidates =>
    "ambiguous option: " ++ arg ++ " could match " ++ String.intercalate ", " candidates
  | expectsValue f => "argument " ++ f.title ++ ": expected one argument"
  | ignoresValue f value =>
    "argument " ++ f.title ++ ": ignored explicit argument " ++ Text.quoted value
  | badValue f expected value =>
    "argument " ++ f.title ++ ": invalid " ++ expected ++ " value: " ++ Text.quoted value
  | missing words => "the following arguments are required: " ++ String.intercalate ", " words
  | unrecognized args => "unrecognized arguments: " ++ String.intercalate " " args
  | unknownCommand word =>
    "argument command: invalid choice: " ++ Text.quoted word ++ " (choose from " ++
      String.intercalate ", " (all.map fun c => Text.quoted c.name) ++ ")"

/-! ## Classes of arguments -/

/-- What an argument is. A flag may have text `attached` to it in the same argument. -/
inductive ArgumentClass where
  | plain
  | separator
  | flag (f : Flag) (long : Bool) (attached : Option (List Char))
  | unknown
  deriving DecidableEq, Repr

/-- Digits of any script. -/
def areDigits (cs : List Char) : Bool :=
  !cs.isEmpty && cs.all fun c => (Text.decimalDigit? c).isSome

/-- Whether an argument is a negative number: digits, perhaps with a point before the last of them.
A line end after it does not count. -/
def isNegativeNumber (arg : List Char) : Bool :=
  match arg with
  | '-' :: rest =>
    let body := if rest.getLast? == some '\n' then rest.dropLast else rest
    let whole := body.takeWhile (· != '.')
    areDigits body ||
      ((whole.isEmpty || areDigits whole) && areDigits ((body.dropWhile (· != '.')).drop 1))
  | _ => false

/-- Whether a spelling is long. -/
def isLong (name : String) : Bool := name.startsWith separator

/-- What an argument has attached after the first `=`. -/
def attachedTo (arg : String) : Option (List Char) :=
  match arg.toList.dropWhile (· != '=') with
  | [] => none
  | _ :: text => some text

/-- The flags that an argument may abbreviate or run into their values, with their spellings. -/
def candidates (flags : List Flag) (arg : String) : List (String × ArgumentClass) :=
  if isLong arg then
    let stem := (splitName arg).1
    ((Flag.table flags).filter fun entry => entry.1.startsWith stem).map fun entry =>
      (entry.1, .flag entry.2 true (attachedTo arg))
  else
    let short := String.ofList (arg.toList.take 2)
    ((Flag.table flags).filter fun entry => entry.1 == short).map fun entry =>
      (entry.1, .flag entry.2 false (some (arg.toList.drop 2)))

/-- The class of an argument before the separator. -/
def classify (flags : List Flag) (arg : String) : Except ArgumentError ArgumentClass :=
  if !looksLikeFlag arg then .ok .plain
  else
    match Flag.ofName? flags arg with
    | some f => .ok (.flag f (isLong arg) none)
    | none =>
      if arg.length == 1 then .ok .plain
      else
        match if (splitName arg).2 then Flag.ofName? flags (splitName arg).1 else none with
        | some f => .ok (.flag f (isLong arg) (attachedTo arg))
        | none =>
          match candidates flags arg with
          | [(_, class_)] => .ok class_
          | [] =>
            if isNegativeNumber arg.toList || arg.toList.contains ' ' then .ok .plain
            else .ok .unknown
          | several => .error (.ambiguous arg (several.map (·.1)))

/-- An argument and its class. -/
abbrev Argument := String × ArgumentClass

/-- The arguments with their classes; the first that is ambiguous is an error. -/
def classifyAll (flags : List Flag) : List String → Except ArgumentError (List Argument)
  | [] => .ok []
  | arg :: rest =>
    if arg == separator then .ok ((arg, .separator) :: rest.map fun a => (a, .plain))
    else
      (classify flags arg).bind fun class_ =>
        (classifyAll flags rest).map fun args => (arg, class_) :: args

/-! ## Uses of flags and words -/

/-- A flag with its value, or a word with its place. -/
inductive ArgumentUse where
  | flag (f : Flag) (value : Option String)
  | word (place : String) (value : Value)

/-- The flags in one argument, and whether the next argument is taken as the value of the last
flag. -/
structure Expansion where
  uses : List ArgumentUse
  takesNext : Bool

/-- The expansion with one more flag in front. -/
def Expansion.after (f : Flag) (e : Expansion) : Expansion :=
  { e with uses := .flag f none :: e.uses }

/-- A flag with nothing attached. -/
def expandBare (f : Flag) (next : Option Argument) : Except ArgumentError Expansion :=
  if f.takesValue then
    match next with
    | some (value, .plain) => .ok ⟨[.flag f (some value)], true⟩
    | _ => .error (.expectsValue f)
  else .ok ⟨[.flag f none], false⟩

/-- A flag with text attached: its value, or, for a short one without a value, more short flags. A
letter among them that is no flag is an error, and is not left over. -/
def expandAttached (flags : List Flag) (next : Option Argument) :
    List Char → Flag → Bool → Except ArgumentError Expansion
  | text, f, long =>
    if f.takesValue then .ok ⟨[.flag f (some (String.ofList text))], false⟩
    else
      match text with
      | [] => .error (.ignoresValue f "")
      | c :: more =>
        match if long then none else Flag.ofName? flags (String.ofList ['-', c]) with
        | none => .error (.ignoresValue f (String.ofList (c :: more)))
        | some g =>
          (if more.isEmpty then expandBare g next
            else expandAttached flags next more g false).map (Expansion.after f)

/-- The flags in an argument. -/
def expand (flags : List Flag) (f : Flag) (long : Bool) (attached : Option (List Char))
    (next : Option Argument) : Except ArgumentError Expansion :=
  match attached with
  | none => expandBare f next
  | some text => expandAttached flags next text f long

/-! ## Reading -/

/-- What was read: uses in order, arguments left over, places that stayed empty, and the error that
ended the reading early. -/
structure Reading where
  uses : List ArgumentUse
  leftOver : List String
  missing : List String
  error : Option ArgumentError

namespace Reading

/-- The reading with more in front. -/
def after (uses : List ArgumentUse) (leftOver : List String) (r : Reading) : Reading :=
  { r with uses := uses ++ r.uses, leftOver := leftOver ++ r.leftOver }

end Reading

/-- The arguments after a flag, which may have taken the first of them as its value. -/
def skip (taken : Bool) (rest : List Argument) : List Argument :=
  if taken then rest.drop 1 else rest

theorem length_skip_le (taken : Bool) (rest : List Argument) :
    (skip taken rest).length ≤ rest.length := by
  cases taken with
  | false => exact Nat.le_refl _
  | true => exact (List.drop_sublist 1 rest).length_le

/-- Whether an argument is a plain word or the separator. -/
def isWord (a : Argument) : Bool := a.2 == .plain || a.2 == .separator

/-- The value of a word. One that looks like the separator, and has no separator beside it, stands
for nothing at all. -/
def wordValue (word : String) (besideSeparator : Bool) : Value :=
  if word == separator && !besideSeparator then .list [] else .text word

/-- The words of a run fill the places; what follows the last of them is left over. A separator
belongs to the word before it, and to the first word if it stands in front. -/
def fill (places : List String) (run : List Argument) : Reading :=
  match places, run with
  | place :: places, (_, .separator) :: (word, .plain) :: rest =>
    (fill places rest).after [.word place (wordValue word true)] []
  | place :: places, (word, .plain) :: (_, .separator) :: rest =>
    (fill places rest).after [.word place (wordValue word true)] []
  | place :: places, (word, .plain) :: rest =>
    (fill places rest).after [.word place (wordValue word false)] []
  | places, run => ⟨[], run.map (·.1), places, none⟩
termination_by run.length

/-- The arguments of a command, read in order. -/
def read (flags : List Flag) (places : List String) (args : List Argument) : Reading :=
  match args with
  | [] => ⟨[], [], places, none⟩
  | (arg, .unknown) :: rest => (read flags places rest).after [] [arg]
  | (_, .flag f long attached) :: rest =>
    match expand flags f long attached rest.head? with
    | .error e => ⟨[], [], places, some e⟩
    | .ok e =>
      (read flags places (skip e.takesNext rest)).after e.uses []
  | a :: rest =>
    let filled := fill places (a :: rest.takeWhile isWord)
    (read flags filled.missing (rest.dropWhile isWord)).after filled.uses filled.leftOver
termination_by args.length
decreasing_by
  · exact Nat.lt_succ_self _
  · exact Nat.lt_succ_of_le (length_skip_le _ _)
  · exact Nat.lt_succ_of_le (List.dropWhile_sublist isWord).length_le

/-- The flags before a command, the word that gives it, and the arguments after it. A separator in
front of the word is taken for the word. -/
def readCommand (flags : List Flag) (args : List Argument) : Reading × Option (String × List String) :=
  match args with
  | [] => (⟨[], [], [], none⟩, none)
  | (arg, .unknown) :: rest =>
    let (r, command) := readCommand flags rest
    (r.after [] [arg], command)
  | (_, .flag f long attached) :: rest =>
    match expand flags f long attached rest.head? with
    | .error e => (⟨[], [], [], some e⟩, none)
    | .ok e =>
      let (r, command) := readCommand flags (skip e.takesNext rest)
      (r.after e.uses [], command)
  | (arg, .plain) :: rest => (⟨[], [], [], none⟩, some (arg, rest.map (·.1)))
  | (arg, .separator) :: rest =>
    if rest.isEmpty then (⟨[], [arg], [], none⟩, none)
    else (⟨[], [], [], none⟩, some (arg, rest.map (·.1)))
termination_by args.length
decreasing_by
  · exact Nat.lt_succ_self _
  · exact Nat.lt_succ_of_le (length_skip_le _ _)

end Command
end SpaceCurve
