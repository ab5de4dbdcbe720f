import SpaceCurve.Command.Run
import SpaceCurve.Proofs.Outcome

/-!
# The arguments of a command that takes equations

The arguments of the program are read in four passes.  `separate` moves equations behind a
separator; the arguments are classified by the flags that may stand before a command, and what
comes after the command is handed on; there it is classified again, now by the flags of the command;
and `read` goes through the classes.  Each pass has its own notion of what a flag is.

This file follows through all four a list of *pieces*: flags with their values, and equations, in
whatever order they are given.

## What is here

* `Given` — a flag as it is written: alone, with its value in the next argument, or with its value
  attached.  `Given.Allowed c` is what the first two passes ask of it, `Given.Fits c` what the
  command itself does.
* `IsEquation c arg` — the argument is no flag of the command, and not the separator either.
* `plan_arguments` — of any pieces, the first two passes leave the flags in front and the equations
  behind the separator, both in the order in which they were given.
* `plan_of_fits` — if there are as many equations as the command takes, it is run on them.
-/

set_option autoImplicit false

namespace SpaceCurve
namespace Command

/-! ## The text of an argument -/

theorem startsWith_eq (s p : String) : s.startsWith p = p.toList.isPrefixOf s.toList := by
  rw [Bool.eq_iff_iff, String.startsWith_string_iff, List.isPrefixOf_iff_prefix]

theorem looksLikeFlag_eq (arg : String) : looksLikeFlag arg = (arg.toList.head? == some '-') := by
  rw [looksLikeFlag, startsWith_eq]
  cases h : arg.toList with
  | nil => rfl
  | cons c rest => simp [List.isPrefixOf, BEq.comm]

/-- The name of an argument with a value attached is what stands before the sign. -/
theorem splitName_append {name : String} (h : '=' ∉ name.toList) (value : String) :
    splitName (name ++ "=" ++ value) = (name, true) := by
  have hname : ∀ c ∈ name.toList, (c != '=') = true := fun c hc =>
    bne_iff_ne.2 fun he => h (he ▸ hc)
  simp [splitName, List.takeWhile_append_of_pos hname]

theorem attachedTo_append {name : String} (h : '=' ∉ name.toList) (value : String) :
    attachedTo (name ++ "=" ++ value) = some value.toList := by
  have hname : ∀ c ∈ name.toList, (c != '=') = true := fun c hc =>
    bne_iff_ne.2 fun he => h (he ▸ hc)
  simp [attachedTo, List.dropWhile_append_of_pos hname]

/-- An argument is its name, unless there is a sign with a value behind it. -/
theorem eq_splitName_or (arg : String) :
    arg = (splitName arg).1 ∨ ∃ value, arg = (splitName arg).1 ++ "=" ++ value := by
  have hsplit : arg.toList.takeWhile (· != '=') ++ arg.toList.dropWhile (· != '=') = arg.toList :=
    List.takeWhile_append_dropWhile
  cases hrest : arg.toList.dropWhile (· != '=') with
  | nil =>
    rw [hrest, List.append_nil] at hsplit
    exact .inl (String.toList_inj.1 (by rw [splitName, String.toList_ofList, hsplit]))
  | cons c value =>
    have hc : c = '=' := by
      have hhead := List.head?_dropWhile_not (· != '=') arg.toList
      rw [hrest] at hhead
      simpa using hhead
    rw [hrest, hc] at hsplit
    refine .inr ⟨String.ofList value, String.toList_inj.1 ?_⟩
    rw [← hsplit]
    simp [splitName]

theorem isLong_splitName {arg : String} (h : isLong arg = true) :
    isLong (splitName arg).1 = true := by
  rw [isLong, startsWith_eq, List.isPrefixOf_iff_prefix] at h ⊢
  obtain ⟨rest, hrest⟩ := h
  rw [splitName, String.toList_ofList, ← hrest]
  exact ⟨rest.takeWhile (· != '='), rfl⟩

/-! ## The names of flags -/

/-- The flag that is found under a name has this name. -/
theorem mem_table_of_ofName? {flags : List Flag} {name : String} {f : Flag}
    (h : Flag.ofName? flags name = some f) : (name, f) ∈ Flag.table flags := by
  rw [Flag.ofName?, List.lookup_eq_some_iff] at h
  obtain ⟨before, after, hsplit, -⟩ := h
  rw [hsplit]
  simp

/-- What the passes need to know about the names of the flags of the commands. -/
structure Named (c : Command) (name : String) (f : Flag) : Prop where
  found : Flag.ofName? c.flags name = some f
  used : flagUse? c.flags name = some ⟨f, false⟩
  noValue : '=' ∉ name.toList
  ne_separator : name ≠ separator
  looks : looksLikeFlag name = true
  common : (candidates commonFlags name).length ≤ 1
  common_stem : ((Flag.table commonFlags).filter fun entry => entry.1.startsWith name).length ≤ 1

theorem named_of_mem {c : Command} {name : String} {f : Flag}
    (h : (name, f) ∈ Flag.table c.flags) : Named c name f := by
  have hall : ∀ entry ∈ Flag.table c.flags, Flag.ofName? c.flags entry.1 = some entry.2 ∧
      flagUse? c.flags entry.1 = some ⟨entry.2, false⟩ ∧ '=' ∉ entry.1.toList ∧
      entry.1 ≠ separator ∧ looksLikeFlag entry.1 = true ∧
      (candidates commonFlags entry.1).length ≤ 1 ∧
      ((Flag.table commonFlags).filter fun e => e.1.startsWith entry.1).length ≤ 1 := by
    cases c <;> decide +kernel
  obtain ⟨found, used, noValue, ne_separator, looks, common, common_stem⟩ := hall _ h
  exact ⟨found, used, noValue, ne_separator, looks, common, common_stem⟩

/-! ## The class of an argument -/

theorem classify_of_not_looksLikeFlag {flags : List Flag} {arg : String}
    (h : looksLikeFlag arg = false) : classify flags arg = .ok .plain := by
  rw [classify, h]
  rfl

theorem classify_name {flags : List Flag} {name : String} {f : Flag}
    (hlooks : looksLikeFlag name = true) (hfound : Flag.ofName? flags name = some f) :
    classify flags name = .ok (.flag f (isLong name) none) := by
  rw [classify, hlooks, hfound]
  rfl

/-- What begins with a minus sign and goes on as no flag does is a number, a text with blanks, or
unknown. -/
theorem classify_of_no_name {flags : List Flag} {arg : String} {c : Char} {rest : List Char}
    (harg : arg.toList = '-' :: c :: rest) (hminus : c ≠ '-') (hsign : c ≠ '=')
    (hnames : ∀ entry ∈ Flag.table flags, ¬ ['-', c] <+: entry.1.toList) :
    classify flags arg = .ok
      (if isNegativeNumber arg.toList || arg.toList.contains ' ' then .plain else .unknown) := by
  have hlooks : looksLikeFlag arg = true := by simp [looksLikeFlag_eq, harg]
  have hlong : isLong arg = false := by
    rw [isLong, startsWith_eq, harg]
    show ['-', '-'].isPrefixOf ('-' :: c :: rest) = false
    simp [List.isPrefixOf, hminus.symm]
  have hunnamed : ∀ name : String, ['-', c] <+: name.toList → Flag.ofName? flags name = none := by
    intro name hprefix
    cases h : Flag.ofName? flags name with
    | none => rfl
    | some f => exact absurd hprefix (hnames _ (mem_table_of_ofName? h))
  have hwhole : Flag.ofName? flags arg = none := hunnamed arg ⟨rest, harg.symm⟩
  have hstem : Flag.ofName? flags (splitName arg).1 = none :=
    hunnamed _ ⟨rest.takeWhile (· != '='), by simp [splitName, harg, hsign]⟩
  have hlength : ¬ arg.length = 1 := by
    have hcount : arg.length = rest.length + 2 :=
      String.length_toList.symm.trans (congrArg List.length harg)
    omega
  have hcandidates : candidates flags arg = [] := by
    have hnone : ∀ entry ∈ Flag.table flags, ¬ (entry.1 == String.ofList ['-', c]) = true := by
      intro entry hentry he
      refine hnames entry hentry ⟨[], ?_⟩
      rw [beq_iff_eq.1 he, String.toList_ofList, List.append_nil]
    rw [candidates, if_neg (by simp [hlong]), harg]
    show ((Flag.table flags).filter fun entry => entry.1 == String.ofList ['-', c]).map _ = []
    rw [List.filter_eq_nil_iff.2 hnone, List.map_nil]
  rw [classify, hlooks, hwhole]
  simp only [beq_iff_eq, hlength, hstem, hcandidates, ite_self]
  cases isNegativeNumber arg.toList || arg.toList.contains ' ' <;> rfl

/-- An argument that can be few flags has a class. -/
theorem exists_classify {flags : List Flag} {arg : String}
    (h : (candidates flags arg).length ≤ 1) : ∃ class_, classify flags arg = .ok class_ := by
  rw [classify]
  repeat' split
  all_goals first | exact ⟨_, rfl⟩ | skip
  next several hsingle hnone =>
    match hc : candidates flags arg with
    | [] => exact absurd hc hnone
    | [(name, class_)] => exact absurd hc (hsingle name class_)
    | _ :: _ :: _ => simp [hc] at h

/-! ## Pieces -/

/-- A flag as it is given: alone, with its value in the next argument, or with it attached. -/
inductive Given where
  | bare (f : Flag) (name : String)
  | followed (f : Flag) (name value : String)
  | attached (f : Flag) (name value : String)
  deriving DecidableEq

namespace Given

/-- The arguments that the flag and its value are. -/
def arguments : Given → List String
  | bare _ name => [name]
  | followed _ name value => [name, value]
  | attached _ name value => [name ++ "=" ++ value]

/-- What is to be read from them. -/
def use : Given → ArgumentUse
  | bare f _ => .flag f none
  | followed f _ value => .flag f (some value)
  | attached f _ value => .flag f (some value)

/-- The classes that the command has to give them. -/
def classes : Given → List Argument
  | bare f name => [(name, .flag f (isLong name) none)]
  | followed f name value => [(name, .flag f (isLong name) none), (value, .plain)]
  | attached f name value => [(name ++ "=" ++ value, .flag f true (some value.toList))]

/-- The flag is one of the command's and has a value just if it takes one.  A value in an argument
of its own may be anything that can be classified before the command. -/
def Allowed (c : Command) : Given → Prop
  | bare f name => (name, f) ∈ Flag.table c.flags ∧ f.takesValue = false
  | followed f name value => (name, f) ∈ Flag.table c.flags ∧ f.takesValue = true ∧
      ∃ class_, classify commonFlags value = .ok class_
  | attached f name _ => (name, f) ∈ Flag.table c.flags ∧ f.takesValue = true ∧ isLong name = true

/-- Besides, the command takes a value in an argument of its own for a plain word. -/
def Fits (c : Command) : Given → Prop
  | followed f name value => (followed f name value).Allowed c ∧ value ≠ separator ∧
      classify c.flags value = .ok .plain
  | g => g.Allowed c

theorem Fits.allowed {c : Command} {g : Given} (h : g.Fits c) : g.Allowed c := by
  cases g with
  | bare f name => exact h
  | followed f name value => exact h.1
  | attached f name value => exact h

end Given

/-- An argument that is no flag of the command, with or without a value, nor the separator. -/
def IsEquation (c : Command) (arg : String) : Prop := arg ≠ separator ∧ flagUse? c.flags arg = none

/-- What is not spelled like a flag is an equation. -/
theorem isEquation_of {c : Command} {arg : String} (hseparator : arg ≠ separator)
    (hname : ∀ entry ∈ Flag.table c.flags, arg ≠ entry.1)
    (hvalue : ∀ entry ∈ Flag.table c.flags, isLong entry.1 = true →
      ∀ value, arg ≠ entry.1 ++ "=" ++ value) :
    IsEquation c arg := by
  refine ⟨hseparator, ?_⟩
  cases h : flagUse? c.flags arg with
  | none => rfl
  | some u =>
    exfalso
    rw [flagUse?] at h
    split at h
    next name attached hsplit =>
    obtain ⟨f, hf, -⟩ := Option.map_eq_some_iff.1 h
    have hmem := mem_table_of_ofName? hf
    split at hsplit
    · next hlong =>
      obtain rfl : (splitName arg).1 = name := congrArg Prod.fst hsplit
      rcases eq_splitName_or arg with heq | ⟨value, heq⟩
      · exact hname _ hmem heq
      · exact hvalue _ hmem (isLong_splitName hlong) value heq
    · obtain ⟨rfl, -⟩ := Prod.mk.inj hsplit
      exact hname _ hmem rfl

/-- The arguments of flags and equations, in the order in which they are given. -/
def arguments (pieces : List (Given ⊕ String)) : List String :=
  pieces.flatMap (Sum.elim Given.arguments fun e => [e])

/-- The flags alone. -/
def givens (pieces : List (Given ⊕ String)) : List Given := pieces.filterMap Sum.getLeft?

/-- The equations alone. -/
def equations (pieces : List (Given ⊕ String)) : List String := pieces.filterMap Sum.getRight?

section

variable {c : Command} {g : Given} {pieces : List (Given ⊕ String)}

/-! ## The first pass -/

theorem attached_ne_separator (name value : String) : name ++ "=" ++ value ≠ separator := by
  intro he
  have hequal : '=' ∈ (name ++ "=" ++ value).toList := by simp
  rw [he] at hequal
  revert hequal
  decide

theorem isLong_append {name : String} (h : isLong name = true) (value : String) :
    isLong (name ++ "=" ++ value) = true := by
  rw [isLong, startsWith_eq, List.isPrefixOf_iff_prefix] at h ⊢
  rw [String.toList_append, String.toList_append, List.append_assoc]
  exact h.trans (List.prefix_append _ _)

theorem flagUse?_attached {name : String} {f : Flag} (named : Named c name f)
    (hlong : isLong name = true) (value : String) :
    flagUse? c.flags (name ++ "=" ++ value) = some ⟨f, true⟩ := by
  have hstart : (name ++ "=" ++ value).startsWith separator = true := isLong_append hlong value
  simp [flagUse?, hstart, splitName_append named.noValue, named.found]

theorem partition_given (h : g.Allowed c) (rest : List String) :
    partition c.flags (g.arguments ++ rest) =
      (g.arguments ++ (partition c.flags rest).1, (partition c.flags rest).2) := by
  cases g with
  | bare f name =>
    obtain ⟨hmem, htakes⟩ := h
    have named := named_of_mem hmem
    have hlacks : FlagUse.lacksValue ⟨f, false⟩ = false := by simp [FlagUse.lacksValue, htakes]
    show partition c.flags (name :: rest) = _
    rw [partition.eq_def]
    simp [named.ne_separator, named.used, hlacks, Given.arguments]
  | followed f name value =>
    obtain ⟨hmem, htakes, -⟩ := h
    have named := named_of_mem hmem
    have hlacks : FlagUse.lacksValue ⟨f, false⟩ = true := by simp [FlagUse.lacksValue, htakes]
    show partition c.flags (name :: value :: rest) = _
    rw [partition.eq_def]
    simp [named.ne_separator, named.used, hlacks, Given.arguments]
  | attached f name value =>
    obtain ⟨hmem, -, hlong⟩ := h
    have named := named_of_mem hmem
    have hne := attached_ne_separator name value
    show partition c.flags ((name ++ "=" ++ value) :: rest) = _
    rw [partition.eq_def]
    simp [hne, flagUse?_attached named hlong, FlagUse.lacksValue, Given.arguments]

theorem partition_equation {e : String} (h : IsEquation c e) (rest : List String) :
    partition c.flags (e :: rest) =
      ((partition c.flags rest).1, e :: (partition c.flags rest).2) := by
  obtain ⟨hne, hnone⟩ := h
  rw [partition.eq_def]
  simp [hne, hnone]

/-- The flags and the equations are told apart, and each keep their order. -/
theorem partition_arguments (hgivens : ∀ g ∈ givens pieces, g.Allowed c)
    (hequations : ∀ e ∈ equations pieces, IsEquation c e) :
    partition c.flags (arguments pieces) =
      ((givens pieces).flatMap Given.arguments, equations pieces) := by
  induction pieces with
  | nil => rfl
  | cons piece rest ih =>
    cases piece with
    | inl g =>
      obtain ⟨hg, hgivens⟩ := List.forall_mem_cons.1 hgivens
      show partition c.flags (g.arguments ++ arguments rest) = _
      rw [partition_given hg, ih hgivens hequations]
      rfl
    | inr e =>
      obtain ⟨he, hequations⟩ := List.forall_mem_cons.1 hequations
      show partition c.flags (e :: arguments rest) = _
      rw [partition_equation he, ih hgivens hequations]
      rfl

theorem separate_arguments (hc : c.takesEquations = true)
    (hgivens : ∀ g ∈ givens pieces, g.Allowed c)
    (hequations : ∀ e ∈ equations pieces, IsEquation c e) :
    separate (c.name :: arguments pieces) =
      c.name :: ((givens pieces).flatMap Given.arguments ++ separator :: equations pieces) := by
  have hname : looksLikeFlag c.name = false ∧ ofName? c.name = some c := by
    cases c <;> decide +kernel
  have hcommand : equationCommand? c.name = some c := by
    rw [equationCommand?, hname.2, Option.filter_some, if_pos hc]
  simp [separate, hname.1, hcommand, partition_arguments hgivens hequations]

/-! ## The second pass -/

/-- Arguments that have a class each can be classified together, up to the separator. -/
theorem exists_classifyAll {flags : List Flag} {front : List String}
    (h : ∀ arg ∈ front, ∃ class_, classify flags arg = .ok class_) (behind : List String) :
    ∃ classified, classifyAll flags (front ++ separator :: behind) = .ok classified ∧
      classified.map (·.1) = front ++ separator :: behind := by
  induction front with
  | nil =>
    exact ⟨_, rfl, by simp [Function.comp_def]⟩
  | cons arg rest ih =>
    obtain ⟨⟨class_, hclass⟩, hrest⟩ := List.forall_mem_cons.1 h
    obtain ⟨classified, hclassified, hmap⟩ := ih hrest
    by_cases hseparator : arg = separator
    · refine ⟨_, by rw [List.cons_append, classifyAll, if_pos (by simpa using hseparator)], ?_⟩
      simp [Function.comp_def]
    · refine ⟨(arg, class_) :: classified, ?_, by simp [hmap]⟩
      simp [classifyAll, hseparator, hclass, hclassified, Except.bind, Except.map]

theorem Given.Allowed.exists_classify (h : g.Allowed c) :
    ∀ arg ∈ g.arguments, ∃ class_, classify commonFlags arg = .ok class_ := by
  cases g with
  | bare f name =>
    rw [Given.arguments, List.forall_mem_singleton]
    exact Command.exists_classify (named_of_mem h.1).common
  | followed f name value =>
    obtain ⟨hmem, -, hvalue⟩ := h
    exact List.forall_mem_cons.2 ⟨Command.exists_classify (named_of_mem hmem).common,
      List.forall_mem_singleton.2 hvalue⟩
  | attached f name value =>
    obtain ⟨hmem, -, hlong⟩ := h
    have named := named_of_mem hmem
    refine List.forall_mem_singleton.2 (Command.exists_classify ?_)
    rw [candidates, if_pos (isLong_append hlong value), splitName_append named.noValue,
      List.length_map]
    exact named.common_stem

/-- **The flags come first and then the equations**, whatever the order in which they are given; the
order among the flags and that among the equations stay. -/
theorem plan_arguments [Machine] (hc : c.takesEquations = true)
    (hgivens : ∀ g ∈ givens pieces, g.Allowed c)
    (hequations : ∀ e ∈ equations pieces, IsEquation c e) :
    plan (c.name :: arguments pieces) = planCommand c false []
      ((givens pieces).flatMap Given.arguments ++ separator :: equations pieces) := by
  have hclass : ∀ arg ∈ (givens pieces).flatMap Given.arguments,
      ∃ class_, classify commonFlags arg = .ok class_ := by
    intro arg harg
    obtain ⟨g, hg, harg⟩ := List.mem_flatMap.1 harg
    exact (hgivens g hg).exists_classify arg harg
  obtain ⟨classified, hclassified, hmap⟩ := exists_classifyAll hclass (equations pieces)
  have hname : looksLikeFlag c.name = false ∧ ofName? c.name = some c ∧ c.name ≠ separator := by
    cases c <;> decide +kernel
  have hall : classifyAll commonFlags (separate (c.name :: arguments pieces)) =
      .ok ((c.name, .plain) :: classified) := by
    rw [separate_arguments hc hgivens hequations, classifyAll]
    simp [hname.2.2, classify_of_not_looksLikeFlag hname.1, hclassified, Except.bind, Except.map]
  simp [plan, hall, readCommand, Reading.decide?, hname.2.1, hmap, hasFlag]

/-! ## The passes of the command -/

theorem ofName?_attached (flags : List Flag) (name value : String) :
    Flag.ofName? flags (name ++ "=" ++ value) = none := by
  cases h : Flag.ofName? flags (name ++ "=" ++ value) with
  | none => rfl
  | some f =>
    have hnone : ∀ f : Flag, ∀ name ∈ f.names, '=' ∉ name.toList := by
      intro f
      cases f <;> decide
    obtain ⟨g, -, hg⟩ := List.mem_flatMap.1 (mem_table_of_ofName? h)
    obtain ⟨spelled, hspelled, heq⟩ := List.mem_map.1 hg
    obtain ⟨rfl, -⟩ := Prod.mk.inj heq
    exact absurd (by simp) (hnone g _ hspelled)

theorem classify_attached {name : String} {f : Flag} (named : Named c name f)
    (hlong : isLong name = true) (value : String) :
    classify c.flags (name ++ "=" ++ value) = .ok (.flag f true (some value.toList)) := by
  have hattached := isLong_append hlong value
  have hlooks : looksLikeFlag (name ++ "=" ++ value) = true := by
    rw [isLong, startsWith_eq, List.isPrefixOf_iff_prefix] at hattached
    rw [looksLikeFlag, startsWith_eq, List.isPrefixOf_iff_prefix]
    exact List.IsPrefix.trans ⟨['-'], rfl⟩ hattached
  have hlength : ¬ (name ++ "=" ++ value).length = 1 := by
    rw [isLong, startsWith_eq, List.isPrefixOf_iff_prefix] at hattached
    have hle : 2 ≤ (name ++ "=" ++ value).toList.length := hattached.length_le
    rw [String.length_toList] at hle
    omega
  rw [classify, hlooks, ofName?_attached]
  simp only [beq_iff_eq, hlength, splitName_append named.noValue, named.found, hattached,
    attachedTo_append named.noValue]
  rfl

theorem classifyAll_cons {flags : List Flag} {arg : String} {class_ : ArgumentClass}
    (hne : arg ≠ separator) (hclass : classify flags arg = .ok class_) (rest : List String) :
    classifyAll flags (arg :: rest) =
      (classifyAll flags rest).map fun classified => (arg, class_) :: classified := by
  rw [classifyAll, if_neg (by simpa using hne), hclass]
  rfl

theorem classifyAll_given (h : g.Fits c) {rest : List String} {classified : List Argument}
    (hrest : classifyAll c.flags rest = .ok classified) :
    classifyAll c.flags (g.arguments ++ rest) = .ok (g.classes ++ classified) := by
  cases g with
  | bare f name =>
    have named := named_of_mem h.1
    show classifyAll c.flags (name :: rest) = _
    rw [classifyAll_cons named.ne_separator (classify_name named.looks named.found), hrest]
    rfl
  | followed f name value =>
    obtain ⟨⟨hmem, -⟩, hne, hvalue⟩ := h
    have named := named_of_mem hmem
    show classifyAll c.flags (name :: value :: rest) = _
    rw [classifyAll_cons named.ne_separator (classify_name named.looks named.found),
      classifyAll_cons hne hvalue, hrest]
    rfl
  | attached f name value =>
    obtain ⟨hmem, -, hlong⟩ := h
    have named := named_of_mem hmem
    show classifyAll c.flags ((name ++ "=" ++ value) :: rest) = _
    rw [classifyAll_cons (attached_ne_separator name value) (classify_attached named hlong value),
      hrest]
    rfl

theorem classifyAll_givens {gs : List Given} (h : ∀ g ∈ gs, g.Fits c) (behind : List String) :
    classifyAll c.flags (gs.flatMap Given.arguments ++ separator :: behind) =
      .ok (gs.flatMap Given.classes ++
        (separator, .separator) :: behind.map fun arg => (arg, .plain)) := by
  induction gs with
  | nil => rfl
  | cons g rest ih =>
    obtain ⟨hg, hrest⟩ := List.forall_mem_cons.1 h
    rw [List.flatMap_cons, List.flatMap_cons, List.append_assoc, List.append_assoc]
    exact classifyAll_given hg (ih hrest)

theorem Reading.after_after (uses₁ uses₂ : List ArgumentUse) (r : Reading) :
    (r.after uses₂ []).after uses₁ [] = r.after (uses₁ ++ uses₂) [] := by
  simp [Reading.after]

theorem read_given (h : g.Allowed c) (places : List String) (rest : List Argument) :
    read c.flags places (g.classes ++ rest) = (read c.flags places rest).after [g.use] [] := by
  cases g with
  | bare f name =>
    obtain ⟨-, htakes⟩ := h
    show read c.flags places ((name, .flag f (isLong name) none) :: rest) = _
    rw [read]
    simp [expand, expandBare, htakes, skip, Given.use]
  | followed f name value =>
    obtain ⟨-, htakes, -⟩ := h
    show read c.flags places ((name, .flag f (isLong name) none) :: (value, .plain) :: rest) = _
    rw [read]
    simp [expand, expandBare, htakes, skip, Given.use]
  | attached f name value =>
    obtain ⟨-, htakes, -⟩ := h
    show read c.flags places ((name ++ "=" ++ value, .flag f true (some value.toList)) :: rest) = _
    rw [read]
    simp [expand, expandAttached.eq_def, htakes, skip, Given.use]

theorem read_givens {gs : List Given} (h : ∀ g ∈ gs, g.Allowed c) (places : List String)
    (rest : List Argument) :
    read c.flags places (gs.flatMap Given.classes ++ rest) =
      (read c.flags places rest).after (gs.map Given.use) [] := by
  induction gs with
  | nil => rfl
  | cons g others ih =>
    obtain ⟨hg, hothers⟩ := List.forall_mem_cons.1 h
    rw [List.flatMap_cons, List.append_assoc, read_given hg, ih hothers, Reading.after_after]
    rfl

/-- Words fill as many places. -/
theorem fill_words {places equations : List String} (hlength : equations.length = places.length)
    (hne : ∀ e ∈ equations, e ≠ separator) :
    fill places (equations.map fun e => (e, .plain)) =
      ⟨places.zipWith (fun place e => .word place (.text e)) equations, [], [], none⟩ := by
  induction places generalizing equations with
  | nil =>
    obtain rfl := List.length_eq_zero_iff.1 hlength
    rw [List.map_nil, fill]
    all_goals simp
  | cons place places ih =>
    obtain ⟨e, rest, rfl⟩ := List.exists_cons_of_length_eq_add_one hlength
    obtain ⟨he, hrest⟩ := List.forall_mem_cons.1 hne
    rw [List.map_cons, fill, ih (Nat.succ.inj hlength) hrest]
    · simp [Reading.after, wordValue, he]
    · intro word next
      cases rest <;> simp

/-- Words behind a separator do too, if there is a first one that the separator belongs to. -/
theorem read_words {places equations : List String} (hlength : equations.length = places.length)
    (hpos : 0 < places.length) (hne : ∀ e ∈ equations, e ≠ separator) :
    read c.flags places ((separator, .separator) :: equations.map fun e => (e, .plain)) =
      ⟨places.zipWith (fun place e => .word place (.text e)) equations, [], [], none⟩ := by
  have hwords : ∀ a ∈ equations.map fun e => ((e, .plain) : Argument), isWord a = true := by
    simp [isWord]
  have hfill : fill places ((separator, .separator) :: equations.map fun e => (e, .plain)) =
      ⟨places.zipWith (fun place e => .word place (.text e)) equations, [], [], none⟩ := by
    obtain ⟨place, others, rfl⟩ := List.exists_cons_of_length_pos hpos
    obtain ⟨e, rest, rfl⟩ := List.exists_cons_of_length_eq_add_one hlength
    rw [List.map_cons, fill, fill_words (Nat.succ.inj hlength) (List.forall_mem_cons.1 hne).2]
    simp [Reading.after, wordValue]
  rw [read]
  · rw [← List.append_nil (equations.map _), List.takeWhile_append_of_pos hwords,
      List.dropWhile_append_of_pos hwords]
    simp [hfill, read, Reading.after]
  all_goals simp

/-- **If there are as many equations as the command takes, it is run on them.** -/
theorem plan_of_fits [Machine] (hc : c.takesEquations = true)
    (hgivens : ∀ g ∈ givens pieces, g.Fits c)
    (hequations : ∀ e ∈ equations pieces, IsEquation c e)
    (hlength : (equations pieces).length = c.words.length)
    (huses : ∀ g ∈ givens pieces, decide? (some c) g.use = none) :
    plan (c.name :: arguments pieces) = .command c false ((givens pieces).map Given.use ++
      c.words.zipWith (fun place e => .word place (.text e)) (equations pieces)) := by
  have hallowed : ∀ g ∈ givens pieces, g.Allowed c := fun g hg => (hgivens g hg).allowed
  have hne : ∀ e ∈ equations pieces, e ≠ separator := fun e he => (hequations e he).1
  have hpos : 0 < c.words.length := by
    revert hc
    cases c <;> decide
  have hread := read_givens hallowed c.words
    ((separator, .separator) :: (equations pieces).map fun e => (e, .plain))
  rw [read_words hlength hpos hne] at hread
  have hundecided : ∀ use ∈ (givens pieces).map Given.use ++
      c.words.zipWith (fun place e => .word place (.text e)) (equations pieces),
      decide? (some c) use = none := by
    intro use huse
    rcases List.mem_append.1 huse with huse | huse
    · obtain ⟨g, hg, rfl⟩ := List.mem_map.1 huse
      exact huses g hg
    · obtain ⟨i, hi, rfl⟩ := List.getElem_of_mem huse
      rw [List.getElem_zipWith]
      rfl
  rw [plan_arguments hc hallowed hequations, planCommand, classifyAll_givens hgivens]
  simp [hread, Reading.after, Reading.decide?, List.findSome?_eq_none_iff.2 hundecided]

end

end Command
end SpaceCurve
