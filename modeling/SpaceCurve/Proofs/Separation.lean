import SpaceCurve.Proofs.Arguments

/-!
# Which arguments stay in front

`separate` goes through the arguments of a command once, and what it makes of one depends on those
before: after a flag that wants a value the next argument is this value, whatever it looks like, and
after the separator nothing is a flag any more.  So the statement about it is not about arguments
but about a *reading*, in which each of them has a role.

The roles are fixed by conditions on the arguments before (`Justified`), which do not say how to
find them.  That there is one reading and no other is a theorem here, and the other facts are then
read off it: what is in front is in two of the roles and what is behind in a third.

## What is here

* `IsUse c arg` — the argument is a flag of the command, perhaps with a value attached, and
  `Awaits c arg` — it is one that lacks its value.
* `Role`, `Marked` — arguments with their roles, and `IsReading c marked` — the roles are the right
  ones.  `IsReading.unique` says that there are no others.
* `Marks` — the reading as it is found from the left; `Marks.isReading` says that it is one, and
  `Marks.partition_eq` that `partition` goes by it.
* `Marks.separate_again` — what a second pass makes of the first.
* `separate_characterised` — the arguments before and after.
-/

set_option autoImplicit false

namespace SpaceCurve
namespace Command

/-! ## Uses of flags -/

/-- The argument is a name of a flag of the command, or a long name with a value attached. -/
def IsUse (c : Command) (arg : String) : Prop :=
  ∃ name f, (name, f) ∈ Flag.table c.flags ∧
    (arg = name ∨ isLong name = true ∧ ∃ value, arg = name ++ "=" ++ value)

/-- The argument is a name of a flag that takes a value, and has none attached. -/
def Awaits (c : Command) (arg : String) : Prop :=
  ∃ f, (arg, f) ∈ Flag.table c.flags ∧ f.takesValue = true

section

variable {c : Command} {arg : String}

theorem Awaits.isUse (h : Awaits c arg) : IsUse c arg := by
  obtain ⟨f, hmem, -⟩ := h
  exact ⟨arg, f, hmem, .inl rfl⟩

/-- The use of a flag is found, and it lacks a value if it awaits one. -/
theorem IsUse.exists_use (h : IsUse c arg) :
    ∃ u, flagUse? c.flags arg = some u ∧ (u.lacksValue = true ↔ Awaits c arg) := by
  obtain ⟨name, f, hmem, rfl | ⟨hlong, value, rfl⟩⟩ := h
  · have named := named_of_mem hmem
    refine ⟨_, named.used, ?_⟩
    rw [FlagUse.lacksValue, Bool.not_false, Bool.and_true]
    constructor
    · exact fun htakes => ⟨f, hmem, htakes⟩
    · rintro ⟨g, hg, htakes⟩
      rwa [Option.some.inj (named.found.symm.trans (named_of_mem hg).found)]
  · refine ⟨_, flagUse?_attached (named_of_mem hmem) hlong value, iff_of_false ?_ ?_⟩
    · simp [FlagUse.lacksValue]
    · rintro ⟨g, hg, -⟩
      exact (named_of_mem hg).noValue (by simp)

theorem IsUse.ne_separator (h : IsUse c arg) : arg ≠ separator := by
  obtain ⟨name, f, hmem, rfl | ⟨-, value, rfl⟩⟩ := h
  · exact (named_of_mem hmem).ne_separator
  · exact attached_ne_separator name value

@[simp]
theorem not_isUse_separator (c : Command) : ¬ IsUse c separator := fun h => h.ne_separator rfl

theorem isEquation_iff : IsEquation c arg ↔ arg ≠ separator ∧ ¬ IsUse c arg := by
  constructor
  · rintro ⟨hne, hnone⟩
    refine ⟨hne, fun huse => ?_⟩
    obtain ⟨u, hu, -⟩ := huse.exists_use
    rw [hnone] at hu
    cases hu
  · rintro ⟨hne, huse⟩
    refine isEquation_of hne (fun entry hentry heq => ?_) fun entry hentry hlong value heq => ?_
    · exact huse ⟨entry.1, entry.2, hentry, .inl heq⟩
    · exact huse ⟨entry.1, entry.2, hentry, .inr ⟨hlong, value, heq⟩⟩

end

/-! ## Roles -/

/-- What an argument after the command is taken for. -/
inductive Role where
  | flag
  | value
  | separator
  | equation
  deriving DecidableEq

/-- An argument and its role. -/
abbrev Marked := String × Role

/-- Whether an argument in this role stays in front. -/
def Role.isFront (role : Role) : Bool := role == .flag || role == .value

/-- The arguments whose roles are among some, in their order. -/
def taken (roles : Role → Bool) (marked : List Marked) : List String :=
  (marked.filter fun m => roles m.2).map Prod.fst

/-- The last argument is a flag that lacks its value. -/
def Pending (c : Command) (before : List Marked) : Prop :=
  ∃ arg, before.getLast? = some (arg, .flag) ∧ Awaits c arg

/-- The separator is among the arguments. -/
def Closed (before : List Marked) : Prop := ∃ arg, (arg, Role.separator) ∈ before

/-- The role of an argument is the one that it has after those before it: it is the value of the
flag right before it, or else the first separator, or else, before a separator, a flag; or an
equation. -/
structure Justified (c : Command) (before : List Marked) (m : Marked) : Prop where
  value_iff : m.2 = .value ↔ Pending c before
  separator_iff : m.2 = .separator ↔ m.1 = separator ∧ m.2 ≠ .value ∧ ¬ Closed before
  flag_iff : m.2 = .flag ↔ IsUse c m.1 ∧ m.2 ≠ .value ∧ ¬ Closed before

/-- All arguments have the roles that they should have. -/
def IsReading (c : Command) (marked : List Marked) : Prop :=
  ∀ before m after, marked = before ++ m :: after → Justified c before m

section

variable {c : Command} {before marked : List Marked} {m : Marked} {arg : String} {role role' : Role}

theorem isReading_nil : IsReading c [] := fun before m after h => absurd h (by simp)

@[simp]
theorem pending_concat_iff :
    Pending c (before ++ [(arg, role)]) ↔ role = .flag ∧ Awaits c arg := by
  simp only [Pending, List.getLast?_concat, Option.some_inj, Prod.mk.injEq]
  exact ⟨fun ⟨_, ⟨rfl, hrole⟩, h⟩ => ⟨hrole, h⟩, fun ⟨hrole, h⟩ => ⟨arg, ⟨rfl, hrole⟩, h⟩⟩

@[simp]
theorem closed_concat_iff :
    Closed (before ++ [(arg, role)]) ↔ Closed before ∨ role = .separator := by
  simp only [Closed, List.mem_append, List.mem_singleton, Prod.mk.injEq, exists_or]
  exact or_congr_right ⟨fun ⟨_, _, h⟩ => h.symm, fun h => ⟨arg, rfl, h.symm⟩⟩

/-- A reading is found from the left, one argument after the other. -/
theorem isReading_concat_iff :
    IsReading c (before ++ [m]) ↔ IsReading c before ∧ Justified c before m := by
  constructor
  · intro h
    refine ⟨fun first other rest hsplit => ?_, h before m [] rfl⟩
    exact h first other (rest ++ [m]) (by rw [hsplit, List.append_assoc, List.cons_append])
  · rintro ⟨hbefore, hm⟩ first other rest hsplit
    rcases List.eq_nil_or_concat rest with rfl | ⟨rest, last, rfl⟩
    · obtain ⟨rfl, hlast⟩ := List.append_inj' hsplit rfl
      exact (List.cons.inj hlast).1 ▸ hm
    · have hlast : before ++ [m] = (first ++ other :: rest) ++ [last] := by simpa using hsplit
      exact hbefore first other rest (List.append_inj' hlast rfl).1

theorem Justified.role_unique (h : Justified c before (arg, role))
    (h' : Justified c before (arg, role')) : role = role' := by
  have hvalue := h.value_iff.trans h'.value_iff.symm
  have hseparator := h.separator_iff
  have hseparator' := h'.separator_iff
  have hflag := h.flag_iff
  have hflag' := h'.flag_iff
  cases role <;> cases role' <;> simp_all

/-- **There is at most one reading of the arguments.** -/
theorem IsReading.unique {other : List Marked} (h : IsReading c marked) (h' : IsReading c other)
    (heq : marked.map Prod.fst = other.map Prod.fst) : marked = other := by
  induction marked using List.reverseRecOn generalizing other with
  | nil => simpa using heq.symm
  | append_singleton before m ih =>
    obtain ⟨arg, role⟩ := m
    rcases List.eq_nil_or_concat other with rfl | ⟨before', ⟨arg', role'⟩, rfl⟩
    · simp at heq
    · rw [List.concat_eq_append] at h' heq ⊢
      rw [List.map_append, List.map_append] at heq
      obtain ⟨hinit, hlast⟩ := List.append_inj' heq rfl
      obtain ⟨hbefore, hm⟩ := isReading_concat_iff.1 h
      obtain ⟨hbefore', hm'⟩ := isReading_concat_iff.1 h'
      obtain rfl := ih hbefore hbefore' hinit
      obtain rfl : arg = arg' := (List.cons.inj hlast).1
      rw [hm.role_unique hm']

/-! ## The reading from the left -/

/-- How the arguments are read, one or two at a time. -/
inductive Marks (c : Command) : List Marked → Prop
  | nil : Marks c []
  | closing (rest : List String) :
      Marks c ((separator, .separator) :: rest.map fun arg => (arg, .equation))
  | equation {arg : String} {rest : List Marked} (harg : IsEquation c arg) (h : Marks c rest) :
      Marks c ((arg, .equation) :: rest)
  | flag {arg : String} {rest : List Marked} (huse : IsUse c arg) (hawaits : ¬ Awaits c arg)
      (h : Marks c rest) : Marks c ((arg, .flag) :: rest)
  | valued {arg : String} {rest : List Marked} (hawaits : Awaits c arg) (value : String)
      (h : Marks c rest) : Marks c ((arg, .flag) :: (value, .value) :: rest)
  | lacking {arg : String} (hawaits : Awaits c arg) : Marks c [(arg, .flag)]

/-- Any arguments can be read. -/
theorem exists_marks (c : Command) :
    ∀ args : List String, ∃ marked, marked.map Prod.fst = args ∧ Marks c marked
  | [] => ⟨[], rfl, .nil⟩
  | arg :: rest => by
    obtain ⟨marked, hmarked, h⟩ := exists_marks c rest
    by_cases hseparator : arg = separator
    · exact ⟨_, by simp [hseparator, Function.comp_def], .closing rest⟩
    · by_cases huse : IsUse c arg
      · by_cases hawaits : Awaits c arg
        · match rest with
          | [] => exact ⟨_, rfl, .lacking hawaits⟩
          | value :: after =>
            obtain ⟨marked, hmarked, h⟩ := exists_marks c after
            exact ⟨_, by simp [hmarked], .valued hawaits value h⟩
        · exact ⟨_, by simp [hmarked], .flag huse hawaits h⟩
      · exact ⟨_, by simp [hmarked], .equation (isEquation_iff.2 ⟨hseparator, huse⟩) h⟩

/-- Behind the separator there are only equations. -/
theorem isReading_append_equations (h : IsReading c before) (hpending : ¬ Pending c before)
    (hclosed : Closed before) (rest : List String) :
    IsReading c (before ++ rest.map fun arg => (arg, .equation)) := by
  induction rest generalizing before with
  | nil => rwa [List.map_nil, List.append_nil]
  | cons arg rest ih =>
    rw [List.map_cons, List.append_cons]
    refine ih (isReading_concat_iff.2 ⟨h, ?_⟩) (by simp) (by simp [hclosed])
    constructor <;> simp [hpending, hclosed]

/-- **The reading from the left is a reading**, and goes on any other one that does not end with a
flag that lacks its value and has no separator. -/
theorem Marks.isReading_append (h : Marks c marked) (hbefore : IsReading c before)
    (hpending : ¬ Pending c before) (hclosed : ¬ Closed before) :
    IsReading c (before ++ marked) := by
  induction h generalizing before with
  | nil => rwa [List.append_nil]
  | closing rest =>
    rw [List.append_cons]
    refine isReading_append_equations (isReading_concat_iff.2 ⟨hbefore, ?_⟩) (by simp) (by simp)
      rest
    constructor <;> simp [hpending, hclosed]
  | @equation arg rest harg _ ih =>
    obtain ⟨hne, huse⟩ := isEquation_iff.1 harg
    rw [List.append_cons]
    refine ih (isReading_concat_iff.2 ⟨hbefore, ?_⟩) (by simp) (by simp [hclosed])
    constructor <;> simp [hpending, hne, huse]
  | @flag arg rest huse hawaits _ ih =>
    rw [List.append_cons]
    refine ih (isReading_concat_iff.2 ⟨hbefore, ?_⟩) (by simp [hawaits]) (by simp [hclosed])
    constructor <;> simp [hpending, hclosed, huse, huse.ne_separator]
  | @valued arg rest hawaits value _ ih =>
    rw [List.append_cons, List.append_cons]
    refine ih (isReading_concat_iff.2 ⟨isReading_concat_iff.2 ⟨hbefore, ?_⟩, ?_⟩)
      (by rw [pending_concat_iff]; simp)
      (by rw [closed_concat_iff, closed_concat_iff]; simp [hclosed])
    · constructor <;> simp [hpending, hclosed, hawaits.isUse, hawaits.isUse.ne_separator]
    · constructor <;> simp [hawaits]
  | @lacking arg hawaits =>
    refine isReading_concat_iff.2 ⟨hbefore, ?_⟩
    constructor <;> simp [hpending, hclosed, hawaits.isUse, hawaits.isUse.ne_separator]

theorem Marks.isReading (h : Marks c marked) : IsReading c marked :=
  h.isReading_append isReading_nil (by simp [Pending]) (by simp [Closed])

/-! ## The two parts -/

/-- The arguments that stay in front. -/
def front (marked : List Marked) : List String := taken Role.isFront marked

/-- The equations. -/
def behind (marked : List Marked) : List String := taken (· == .equation) marked

/-- What is left out. -/
def dropped (marked : List Marked) : List String := taken (· == .separator) marked

theorem taken_cons (roles : Role → Bool) (arg : String) (role : Role) (marked : List Marked) :
    taken roles ((arg, role) :: marked) =
      if roles role then arg :: taken roles marked else taken roles marked := by
  rw [taken, List.filter_cons]
  split <;> rfl

theorem taken_sublist (roles : Role → Bool) (marked : List Marked) :
    (taken roles marked).Sublist (marked.map Prod.fst) :=
  List.filter_sublist.map Prod.fst

/-- Each argument is in front, left out or behind. -/
theorem perm_taken (marked : List Marked) :
    (marked.map Prod.fst).Perm (front marked ++ dropped marked ++ behind marked) := by
  induction marked with
  | nil => exact .refl _
  | cons m rest ih =>
    obtain ⟨arg, role⟩ := m
    cases role with
    | flag => exact ih.cons arg
    | value => exact ih.cons arg
    | separator =>
      show (arg :: rest.map Prod.fst).Perm (front rest ++ arg :: dropped rest ++ behind rest)
      rw [List.append_assoc, List.cons_append]
      exact (ih.cons arg).trans (by rw [List.append_assoc]; exact List.perm_middle.symm)
    | equation =>
      show (arg :: rest.map Prod.fst).Perm (front rest ++ dropped rest ++ arg :: behind rest)
      exact (ih.cons arg).trans List.perm_middle.symm

theorem partition_separator (flags : List Flag) (rest : List String) :
    partition flags (separator :: rest) = ([], rest) := by
  rw [partition.eq_def]
  simp

theorem partition_flag (huse : IsUse c arg) (hawaits : ¬ Awaits c arg) (rest : List String) :
    partition c.flags (arg :: rest) =
      (arg :: (partition c.flags rest).1, (partition c.flags rest).2) := by
  obtain ⟨u, hu, hlacks⟩ := huse.exists_use
  have hlacks : u.lacksValue = false := Bool.eq_false_iff.2 (mt hlacks.1 hawaits)
  rw [partition.eq_def]
  simp [huse.ne_separator, hu, hlacks]

theorem partition_valued (hawaits : Awaits c arg) (value : String) (rest : List String) :
    partition c.flags (arg :: value :: rest) =
      (arg :: value :: (partition c.flags rest).1, (partition c.flags rest).2) := by
  obtain ⟨u, hu, hlacks⟩ := hawaits.isUse.exists_use
  rw [partition.eq_def]
  simp [hawaits.isUse.ne_separator, hu, hlacks.2 hawaits]

theorem partition_lacking (hawaits : Awaits c arg) : partition c.flags [arg] = ([arg], []) := by
  obtain ⟨u, hu, hlacks⟩ := hawaits.isUse.exists_use
  rw [partition.eq_def]
  simp [hawaits.isUse.ne_separator, hu, hlacks.2 hawaits]

/-- **The arguments are divided by their roles.** -/
theorem Marks.partition_eq (h : Marks c marked) :
    partition c.flags (marked.map Prod.fst) = (front marked, behind marked) := by
  induction h with
  | nil => rfl
  | closing rest =>
    rw [List.map_cons, partition_separator, front, behind, taken_cons, taken_cons]
    simp [taken, Role.isFront, Function.comp_def, List.filter_map]
  | equation harg _ ih =>
    rw [List.map_cons, partition_equation harg, ih]
    rfl
  | flag huse hawaits _ ih =>
    rw [List.map_cons, partition_flag huse hawaits, ih]
    rfl
  | valued hawaits value _ ih =>
    rw [List.map_cons, List.map_cons, partition_valued hawaits, ih]
    rfl
  | lacking hawaits => exact partition_lacking hawaits

/-- At most the separator is left out. -/
theorem Marks.dropped_eq (h : Marks c marked) :
    dropped marked = [] ∨ dropped marked = [separator] := by
  induction h with
  | nil => exact .inl rfl
  | closing rest => exact .inr (by simp [dropped, taken])
  | equation _ _ ih => exact ih
  | flag _ _ _ ih => exact ih
  | valued _ _ _ ih => exact ih
  | lacking _ => exact .inl rfl

/-- Only equations follow the separator. -/
theorem IsReading.after_separator {first rest : List Marked}
    (h : IsReading c (first ++ (arg, .separator) :: rest)) : ∀ m ∈ rest, m.2 = .equation := by
  induction rest using List.reverseRecOn with
  | nil => simp
  | append_singleton rest m ih =>
    rw [← List.cons_append, ← List.append_assoc, isReading_concat_iff] at h
    obtain ⟨hrest, hm⟩ := h
    have hequations := ih hrest
    have hclosed : Closed (first ++ (arg, .separator) :: rest) := ⟨arg, by simp⟩
    have hpending : ¬ Pending c (first ++ (arg, .separator) :: rest) := by
      rintro ⟨flag, hlast, -⟩
      rw [List.getLast?_append_cons, List.getLast?_cons] at hlast
      rcases List.eq_nil_or_concat rest with rfl | ⟨others, last, rfl⟩
      · simp at hlast
      · have hlast : last = (flag, .flag) := by simpa using hlast
        have := hequations last (by simp)
        simp [hlast] at this
    have hvalue := mt hm.value_iff.1 hpending
    have hseparator := fun hrole => (hm.separator_iff.1 hrole).2.2 hclosed
    have hflag := fun hrole => (hm.flag_iff.1 hrole).2.2 hclosed
    rw [List.forall_mem_append, List.forall_mem_singleton]
    refine ⟨hequations, ?_⟩
    cases hrole : m.2 with
    | flag => exact absurd hrole hflag
    | value => exact absurd hrole hvalue
    | separator => exact absurd hrole hseparator
    | equation => rfl

/-! ## The second pass -/

/-- The last argument that stays in front is a flag that lacks its value. -/
def EndsLacking (c : Command) (marked : List Marked) : Prop :=
  Pending c (marked.filter fun m => m.2.isFront)

theorem pending_cons_iff {rest : List Marked} :
    Pending c ((arg, role) :: rest) ↔
      Pending c rest ∨ rest = [] ∧ role = .flag ∧ Awaits c arg := by
  cases rest with
  | nil =>
    rw [← List.nil_append [(arg, role)], pending_concat_iff]
    simp [Pending]
  | cons m rest => simp [Pending, List.getLast?_cons_cons]

theorem partition_equations {equations : List String} (h : ∀ e ∈ equations, IsEquation c e) :
    partition c.flags equations = ([], equations) := by
  induction equations with
  | nil => rfl
  | cons e rest ih =>
    obtain ⟨he, hrest⟩ := List.forall_mem_cons.1 h
    rw [partition_equation he, ih hrest]

theorem filter_isFront_closing (rest : List String) :
    ((separator, Role.separator) :: rest.map fun arg => (arg, Role.equation)).filter
      (fun m => m.2.isFront) = [] :=
  List.filter_eq_nil_iff.2 (by simp [Role.isFront])

/-- **What is in front stays there** if its flags have their values. -/
theorem Marks.partition_front (h : Marks c marked) (hfront : ¬ EndsLacking c marked)
    (equations : List String) :
    partition c.flags (front marked ++ separator :: equations) = (front marked, equations) := by
  induction h with
  | nil => exact partition_separator c.flags equations
  | closing rest =>
    rw [front, taken, filter_isFront_closing]
    exact partition_separator c.flags equations
  | equation _ _ ih => exact ih hfront
  | @flag arg rest huse hawaits _ ih =>
    have hrest : ¬ EndsLacking c rest := fun h => hfront (pending_cons_iff.2 (.inl h))
    show partition c.flags (arg :: (front rest ++ separator :: equations)) = (arg :: front rest, _)
    rw [partition_flag huse hawaits, ih hrest]
  | @valued arg rest hawaits value _ ih =>
    have hrest : ¬ EndsLacking c rest := fun h =>
      hfront (pending_cons_iff.2 (.inl (pending_cons_iff.2 (.inl h))))
    show partition c.flags (arg :: value :: (front rest ++ separator :: equations)) =
      (arg :: value :: front rest, _)
    rw [partition_valued hawaits, ih hrest]
  | lacking hawaits => exact absurd (pending_cons_iff.2 (.inr ⟨rfl, rfl, hawaits⟩)) hfront

/-- If its last flag lacks a value, it gets the separator. -/
theorem Marks.partition_pending (h : Marks c marked) (hfront : EndsLacking c marked) :
    (∀ e ∈ behind marked, IsEquation c e) ∧
      ∀ equations, (∀ e ∈ equations, IsEquation c e) →
        partition c.flags (front marked ++ separator :: equations) =
          (front marked ++ [separator], equations) := by
  induction h with
  | nil => simp [EndsLacking, Pending] at hfront
  | closing rest =>
    rw [EndsLacking, filter_isFront_closing] at hfront
    simp [Pending] at hfront
  | equation harg _ ih =>
    obtain ⟨hbehind, hpartition⟩ := ih hfront
    exact ⟨List.forall_mem_cons.2 ⟨harg, hbehind⟩, hpartition⟩
  | @flag arg rest huse hawaits _ ih =>
    have hrest : EndsLacking c rest := by
      rcases pending_cons_iff.1 hfront with h | ⟨-, -, h⟩
      · exact h
      · exact absurd h hawaits
    obtain ⟨hbehind, hpartition⟩ := ih hrest
    refine ⟨hbehind, fun equations hequations => ?_⟩
    show partition c.flags (arg :: (front rest ++ separator :: equations)) =
      (arg :: (front rest ++ [separator]), _)
    rw [partition_flag huse hawaits, hpartition equations hequations]
  | @valued arg rest hawaits value _ ih =>
    have hrest : EndsLacking c rest := by
      rcases pending_cons_iff.1 hfront with h | ⟨h, -⟩
      · rcases pending_cons_iff.1 h with h | ⟨-, h, -⟩
        · exact h
        · cases h
      · cases h
    obtain ⟨hbehind, hpartition⟩ := ih hrest
    refine ⟨hbehind, fun equations hequations => ?_⟩
    show partition c.flags (arg :: value :: (front rest ++ separator :: equations)) =
      (arg :: value :: (front rest ++ [separator]), _)
    rw [partition_valued hawaits, hpartition equations hequations]
  | @lacking arg hawaits =>
    refine ⟨by simp [behind, taken], fun equations hequations => ?_⟩
    show partition c.flags (arg :: separator :: equations) = ([arg, separator], equations)
    rw [partition_valued hawaits, partition_equations hequations]

/-! ## All arguments -/

theorem takesEquations_iff : c.takesEquations = true ↔ c = .validate ∨ c = .evaluate := by
  cases c <;> simp [takesEquations]

theorem equationCommand?_eq_some_iff {word : String} :
    equationCommand? word = some c ↔ c.takesEquations = true ∧ c.name = word := by
  rw [equationCommand?, Option.filter_eq_some_iff, and_comm]
  refine and_congr_right fun _ => ⟨fun h => by simpa using List.find?_some h, ?_⟩
  rintro rfl
  cases c <;> decide +kernel

section

variable {args after : List String} {leading : List String} {word : String}

theorem separate_of_looksLikeFlag (h : ∀ arg ∈ args, looksLikeFlag arg = true) :
    separate args = args := by
  rw [separate, List.dropWhile_eq_nil_iff.2 h]

theorem dropWhile_leading (hleading : ∀ arg ∈ leading, looksLikeFlag arg = true)
    (hword : looksLikeFlag word = false) :
    (leading ++ word :: after).dropWhile looksLikeFlag = word :: after := by
  rw [List.dropWhile_append_of_pos hleading, List.dropWhile_cons_of_neg (by simp [hword])]

theorem takeWhile_leading (hleading : ∀ arg ∈ leading, looksLikeFlag arg = true)
    (hword : looksLikeFlag word = false) :
    (leading ++ word :: after).takeWhile looksLikeFlag = leading := by
  rw [List.takeWhile_append_of_pos hleading, List.takeWhile_cons_of_neg (by simp [hword]),
    List.append_nil]

theorem separate_of_none (hleading : ∀ arg ∈ leading, looksLikeFlag arg = true)
    (hword : looksLikeFlag word = false) (hnone : equationCommand? word = none) :
    separate (leading ++ word :: after) = leading ++ word :: after := by
  simp only [separate, dropWhile_leading hleading hword, hnone]

theorem separate_command (hleading : ∀ arg ∈ leading, looksLikeFlag arg = true)
    (hc : c.takesEquations = true) (after : List String) :
    separate (leading ++ c.name :: after) = leading ++ c.name ::
      ((partition c.flags after).1 ++ separator :: (partition c.flags after).2) := by
  have hname : looksLikeFlag c.name = false := by cases c <;> decide +kernel
  have hcommand : equationCommand? c.name = some c := equationCommand?_eq_some_iff.2 ⟨hc, rfl⟩
  simp only [separate, dropWhile_leading hleading hname, takeWhile_leading hleading hname, hcommand,
    List.append_assoc, List.cons_append]

/-- **A second pass changes nothing**, unless the last flag in front lacks its value: then it puts a
second separator there. -/
theorem Marks.separate_again (h : Marks c marked)
    (hleading : ∀ arg ∈ leading, looksLikeFlag arg = true) (hc : c.takesEquations = true) :
    separate (leading ++ c.name :: (front marked ++ separator :: behind marked)) =
        leading ++ c.name :: (front marked ++ separator :: behind marked) ↔
      ¬ EndsLacking c marked := by
  rw [separate_command hleading hc]
  constructor
  · intro heq hlacking
    obtain ⟨hbehind, hpartition⟩ := h.partition_pending hlacking
    rw [hpartition _ hbehind] at heq
    have hlength := congrArg List.length heq
    simp at hlength
  · intro hfront
    rw [h.partition_front hfront]

/-- What becomes of the arguments after a command, which have the roles of `marked`: its flags and
their values stay in front, all else goes behind a separator, which takes the place of the one that
was given. -/
structure Divided (c : Command) (leading after : List String) (marked : List Marked) : Prop where
  arguments : marked.map Prod.fst = after
  reading : IsReading c marked
  unique : ∀ other, other.map Prod.fst = after → IsReading c other → other = marked
  result : separate (leading ++ c.name :: after) =
    leading ++ c.name :: (front marked ++ separator :: behind marked)
  front_sublist : (front marked).Sublist after
  behind_sublist : (behind marked).Sublist after
  perm : after.Perm (front marked ++ dropped marked ++ behind marked)
  dropped_eq : dropped marked = [] ∨ dropped marked = [separator]
  after_separator : ∀ first arg rest, marked = first ++ (arg, .separator) :: rest →
    ∀ m ∈ rest, m.2 = .equation
  again : separate (separate (leading ++ c.name :: after)) = separate (leading ++ c.name :: after) ↔
    ¬ EndsLacking c marked

theorem Marks.divided (h : Marks c marked)
    (hleading : ∀ arg ∈ leading, looksLikeFlag arg = true) (hc : c.takesEquations = true) :
    Divided c leading (marked.map Prod.fst) marked := by
  have hseparate := separate_command hleading hc (marked.map Prod.fst)
  rw [h.partition_eq] at hseparate
  exact
    { arguments := rfl
      reading := h.isReading
      unique := fun other hother hreading => hreading.unique h.isReading hother
      result := hseparate
      front_sublist := taken_sublist _ _
      behind_sublist := taken_sublist _ _
      perm := perm_taken marked
      dropped_eq := h.dropped_eq
      after_separator := fun first arg rest hsplit => (hsplit ▸ h.isReading).after_separator
      again := by rw [hseparate, h.separate_again hleading hc] }

/-- **Which arguments stay in front**: if all arguments look like flags, or the first one that does
not is not a command that takes equations, nothing changes.  Otherwise the arguments after the
command are divided by the roles that they have. -/
theorem separate_characterised (args : List String) :
    ((∀ arg ∈ args, looksLikeFlag arg = true) ∧ separate args = args) ∨
    ∃ leading word after, args = leading ++ word :: after ∧
      (∀ arg ∈ leading, looksLikeFlag arg = true) ∧ looksLikeFlag word = false ∧
      ((word ≠ "validate" ∧ word ≠ "evaluate" ∧ separate args = args) ∨
        ∃ c : Command, (c = .validate ∨ c = .evaluate) ∧ word = c.name ∧
          ∃ marked, Divided c leading after marked) := by
  cases hdrop : args.dropWhile looksLikeFlag with
  | nil =>
    have hall := List.dropWhile_eq_nil_iff.1 hdrop
    exact .inl ⟨hall, separate_of_looksLikeFlag hall⟩
  | cons word after =>
    have hargs : args = args.takeWhile looksLikeFlag ++ word :: after := by
      rw [← hdrop, List.takeWhile_append_dropWhile]
    have hleading : ∀ arg ∈ args.takeWhile looksLikeFlag, looksLikeFlag arg = true :=
      fun _ => List.mem_takeWhile_imp
    have hword : looksLikeFlag word = false := by
      have hhead := List.head?_dropWhile_not looksLikeFlag args
      rw [hdrop] at hhead
      simpa using hhead
    refine .inr ⟨args.takeWhile looksLikeFlag, word, after, hargs, hleading, hword, ?_⟩
    cases hcommand : equationCommand? word with
    | none =>
      have hname : ∀ c : Command, c.takesEquations = true → word ≠ c.name := by
        rintro c hc rfl
        simp [equationCommand?_eq_some_iff.2 ⟨hc, rfl⟩] at hcommand
      refine .inl ⟨hname .validate rfl, hname .evaluate rfl, ?_⟩
      rw [hargs]
      exact separate_of_none hleading hword hcommand
    | some c =>
      obtain ⟨hc, rfl⟩ := equationCommand?_eq_some_iff.1 hcommand
      obtain ⟨marked, rfl, h⟩ := exists_marks c after
      exact .inr ⟨c, takesEquations_iff.1 hc, rfl, marked, h.divided hleading hc⟩

/-- The flag `-t` lacks its value here, and a second pass gives it the separator. -/
example : separate ["-v", "evaluate", "-t^2", "-t"] = ["-v", "evaluate", "-t", "--", "-t^2"] ∧
    separate ["-v", "evaluate", "-t", "--", "-t^2"] =
      ["-v", "evaluate", "-t", "--", "--", "-t^2"] := by
  decide +kernel

end

end

end Command
end SpaceCurve
