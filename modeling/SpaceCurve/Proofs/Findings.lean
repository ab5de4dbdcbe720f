import SpaceCurve.Proofs.Joint

/-!
# What a verdict says

The stages of validation leave axes out as they go, and the first two of them look at the text
without parsing it.  This file accounts for the findings without the stages.

## What is here

* `Rejected`, `Broken`, `Open` — the equation of an axis does not parse; it parses and is not
  finite at some sample point; it parses and its values at zero and at the period are too far
  apart.  Each is about one axis and says nothing of the others.
* `JointDue` — the points of the curve are to be checked.
* `Account` — the findings are one for each axis that is rejected, broken or open, and those of the
  joint stage.  `validate_accounts` says that every verdict is accounted for in this way.

Each axis that does not parse has exactly one finding, whichever of the first three stages it comes
from.  This takes two facts about the parser: blank texts and texts with unbalanced parentheses do
not parse.
-/

set_option autoImplicit false

namespace SpaceCurve
namespace Validation

/-! ## Three ways to fail -/

/-- The equation of the axis does not parse. -/
def Rejected (sources : Triple Value) (axis : Axis) : Prop :=
  ∃ fault, Equation.parse (sources.get axis) = .error fault

/-- The equation of the axis parses and is not finite at some sample point. -/
def Broken (sources : Triple Value) (p : ValidationPolicy) (axis : Axis) : Prop :=
  ∃ e points t y, Equation.parse (sources.get axis) = .ok e ∧ p.samplePoints = .tuple points ∧
    t ∈ points ∧ e.evaluate t = .ok y ∧ y.isFinite = false

/-- The equation of the axis parses, and its values at zero and at the period differ by more than
the tolerance. -/
def Open (sources : Triple Value) (p : ValidationPolicy) (axis : Axis) : Prop :=
  ∃ e a b tolerance, Equation.parse (sources.get axis) = .ok e ∧
    e.evaluate (.real 0.0) = .ok a ∧ e.evaluate p.period = .ok b ∧
    p.periodicityTolerance = .real tolerance ∧ tolerance < (a - b).abs

/-- The policy wants the points of the curve checked, and the curve is there: all its equations
parse, and they are finite at the sample points. -/
def JointDue (sources : Triple Value) (p : ValidationPolicy) (c : Curve) : Prop :=
  p.checkGeometry.truthy = true ∧ Curve.parse sources = .ok c ∧ ∀ axis, ¬ Broken sources p axis

/-- The list has the axes with a property, each once. -/
structure Lists (axes : List Axis) (P : Axis → Prop) : Prop where
  nodup : axes.Nodup
  mem_iff : ∀ axis, axis ∈ axes ↔ P axis

/-- What the findings on three sources are, where `joint` are those about the points of the
curve. -/
structure Account (sources : Triple Value) (p : ValidationPolicy) (joint findings : List Finding)
    where
  syntactic : List Finding
  rejected : List Axis
  broken : List Axis
  unclosed : List Axis
  perm : findings.Perm (syntactic ++
    broken.map (fun axis => (Failure.onAxis .sampleValues axis).finding) ++
    unclosed.map (fun axis => (Failure.onAxis .periodicity axis).finding) ++ joint)
  kind_eq : ∀ f ∈ syntactic, f.kind = .grammar
  axis_eq : (syntactic.map Finding.axis).Perm (rejected.map fun axis => .text axis.name)
  rejected_lists : Lists rejected (Rejected sources)
  broken_lists : Lists broken (Broken sources p)
  unclosed_lists : Lists unclosed fun axis =>
    p.checkPeriodicity.truthy = true ∧ Open sources p axis

/-! ## The first three stages -/

variable {sources : Triple Value} {p : ValidationPolicy}

theorem mem_all (axis : Axis) : axis ∈ Axis.all := by
  cases axis <;> decide

/-- Whether the equation of the axis does not parse. -/
def isRejected (sources : Triple Value) (axis : Axis) : Bool :=
  !(Equation.parse (sources.get axis)).isOk

theorem isRejected_iff {axis : Axis} : isRejected sources axis = true ↔ Rejected sources axis := by
  rw [isRejected, Rejected]
  cases Equation.parse (sources.get axis) with
  | error fault => simp [Except.isOk, Except.toBool]
  | ok e => simp [Except.isOk, Except.toBool]

/-- A test that passes all that parses turns away nothing but what is rejected. -/
theorem isRejected_of_test {test : Value → Bool}
    (htest : ∀ source e, Equation.parse source = .ok e → test source = true) {axis : Axis}
    (h : test (sources.get axis) = false) : isRejected sources axis = true := by
  cases hparse : Equation.parse (sources.get axis) with
  | error fault => exact isRejected_iff.2 ⟨fault, hparse⟩
  | ok e =>
    rw [htest _ e hparse] at h
    cases h

/-- **The equations that get through the first three stages are those that parse.** -/
theorem parsed_eq (sources : Triple Value) :
    parsed sources = Axis.all.filterMap (parsedOn? sources) := by
  rw [parsed, balanced, present, List.filter_filter, List.filterMap_filter]
  refine List.filterMap_congr fun axis _ => ?_
  split
  · rfl
  · next hout =>
    cases hparse : Equation.parse (sources.get axis) with
    | error fault => simp [parsedOn?, hparse, Except.toOption]
    | ok e =>
      exact absurd (by simp [isPresent_of_parse hparse, isBalanced_of_parse hparse]) hout

theorem mem_parsed {axis : Axis} {e : Equation} :
    (axis, e) ∈ parsed sources ↔ Equation.parse (sources.get axis) = .ok e := by
  rw [parsed_eq, List.mem_filterMap]
  constructor
  · rintro ⟨a, -, ha⟩
    obtain ⟨e', he', heq⟩ := Option.map_eq_some_iff.1 ha
    cases heq
    cases hparse : Equation.parse (sources.get axis) with
    | error fault => simp [hparse, Except.toOption] at he'
    | ok e'' => simpa [hparse, Except.toOption] using he'
  · intro h
    exact ⟨axis, mem_all axis, by simp [parsedOn?, h, Except.toOption]⟩

theorem sublist_parsed (sources : Triple Value) :
    ((parsed sources).map (·.1)).Sublist Axis.all := by
  have hgeneral : ∀ axes : List Axis,
      ((axes.filterMap (parsedOn? sources)).map (·.1)).Sublist axes := by
    intro axes
    induction axes with
    | nil => exact .slnil
    | cons axis rest ih =>
      rw [List.filterMap_cons]
      split
      · exact ih.cons axis
      · next q hq =>
        obtain ⟨e, -, rfl⟩ := Option.map_eq_some_iff.1 hq
        exact ih.cons_cons axis
  rw [parsed_eq]
  exact hgeneral Axis.all

/-- Three stages, of which the first two turn away nothing but what is rejected and the third one
the rest of it, turn away what is rejected. -/
theorem perm_stages {present? balanced? rejected? : Axis → Bool}
    (hp : ∀ a, present? a = false → rejected? a = true)
    (hb : ∀ a, balanced? a = false → rejected? a = true) (axes : List Axis) :
    (axes.filter (fun a => !present? a) ++
      (axes.filter present?).filter (fun a => !balanced? a) ++
      ((axes.filter present?).filter balanced?).filter rejected?).Perm
      (axes.filter rejected?) := by
  induction axes with
  | nil => exact .refl _
  | cons a rest ih =>
    cases hpa : present? a with
    | false => simpa [hpa, hp a hpa] using ih
    | true =>
      cases hba : balanced? a with
      | false =>
        -- `a` comes from the second list, behind all that the first one has
        have hmiddle := (List.perm_middle.append_right _).trans (ih.cons a)
        simpa [hpa, hba, hb a hba] using hmiddle
      | true =>
        cases hra : rejected? a with
        | false => simpa [hpa, hba, hra] using ih
        | true =>
          have hmiddle := List.perm_middle.trans (ih.cons a)
          simpa [hpa, hba, hra] using hmiddle

/-- **Every rejected axis is turned away by exactly one of the first three stages.** -/
theorem perm_isRejected (sources : Triple Value) :
    (absent sources ++ unbalanced sources ++
      (balanced sources).filter (isRejected sources)).Perm
      (Axis.all.filter (isRejected sources)) :=
  perm_stages (fun _ => isRejected_of_test fun _ _ => isPresent_of_parse)
    (fun _ => isRejected_of_test fun _ _ => isBalanced_of_parse) Axis.all

theorem failures_append (events later : List Event) :
    Event.failures (events ++ later) = Event.failures events ++ Event.failures later :=
  List.filterMap_append

theorem failures_map (fail : Axis → Failure) (axes : List Axis) :
    Event.failures (axes.map fun axis => .failed (fail axis)) = axes.map fail := by
  induction axes with
  | nil => rfl
  | cons axis rest ih => exact congrArg (fail axis :: ·) ih

theorem failures_parseEvents (sources : Triple Value) (axes : List Axis) :
    (∀ f ∈ Event.failures (axes.flatMap (parseEvents sources)), f.check.kind = .grammar) ∧
      (Event.failures (axes.flatMap (parseEvents sources))).map Failure.axis =
        (axes.filter (isRejected sources)).map some := by
  induction axes with
  | nil => exact ⟨by simp [Event.failures], rfl⟩
  | cons axis rest ih =>
    obtain ⟨hkind, haxes⟩ := ih
    rw [List.flatMap_cons, failures_append, List.filter_cons]
    cases hparse : Equation.parse (sources.get axis) with
    | ok e =>
      have hr : isRejected sources axis = false := by
        simp [isRejected, hparse, Except.isOk, Except.toBool]
      have hnone : Event.failures (parseEvents sources axis) = [] := by
        rw [parseEvents, hparse]
        rfl
      rw [hr, hnone]
      exact ⟨hkind, haxes⟩
    | error fault =>
      have hr : isRejected sources axis = true := isRejected_iff.2 ⟨fault, hparse⟩
      have hone : Event.failures (parseEvents sources axis) =
          [⟨.grammar, some axis, Check.grammarText fault⟩] := by
        rw [parseEvents, hparse]
        rfl
      rw [hr, hone]
      refine ⟨fun f hf => ?_, congrArg (some axis :: ·) haxes⟩
      rcases List.mem_cons.1 hf with rfl | hf
      · rfl
      · exact hkind f hf

/-- **What the first three stages find**: one thing about the text of each rejected axis. -/
theorem failures_sourceEvents (sources : Triple Value) :
    (∀ f ∈ Event.failures (sourceEvents sources), f.check.kind = .grammar) ∧
      ((Event.failures (sourceEvents sources)).map Failure.axis).Perm
        ((Axis.all.filter (isRejected sources)).map some) := by
  obtain ⟨hkind, haxes⟩ := failures_parseEvents sources (balanced sources)
  have hfailures : Event.failures (sourceEvents sources) =
      (absent sources).map (.onAxis .empty) ++ (unbalanced sources).map (.onAxis .parentheses) ++
        Event.failures ((balanced sources).flatMap (parseEvents sources)) := by
    rw [sourceEvents, failures_append, failures_append, failures_map, failures_map]
  rw [hfailures]
  constructor
  · intro f hf
    rcases List.mem_append.1 hf with hf | hf
    · rcases List.mem_append.1 hf with hf | hf
      · obtain ⟨axis, -, rfl⟩ := List.mem_map.1 hf
        rfl
      · obtain ⟨axis, -, rfl⟩ := List.mem_map.1 hf
        rfl
    · exact hkind f hf
  · have hsome := (perm_isRejected sources).map some
    rw [List.map_append, List.map_append] at hsome
    rw [List.map_append, List.map_append, haxes, List.map_map, List.map_map]
    exact hsome

/-! ## The values -/

theorem lists_isRejected (sources : Triple Value) :
    Lists (Axis.all.filter (isRejected sources)) (Rejected sources) where
  nodup := List.Nodup.filter _ (by decide)
  mem_iff axis := by rw [List.mem_filter, isRejected_iff, and_iff_right (mem_all axis)]

/-- A check that has an outcome on whatever parses lists the axes that parse and fail it. -/
theorem exists_lists {passes : Equation → Except Fault Bool} {P : Axis → Prop}
    (h : ∀ axis e, Equation.parse (sources.get axis) = .ok e → ∃ b, passes e = .ok b)
    (hP : ∀ axis, P axis ↔ ∃ e, Equation.parse (sources.get axis) = .ok e ∧ passes e = .ok false) :
    ∃ axes, failingAxes passes (parsed sources) = .ok axes ∧ Lists axes P := by
  have houtcome : ∀ q ∈ parsed sources, ∃ b, passes q.2 = .ok b := by
    rintro ⟨axis, e⟩ hq
    exact h axis e (mem_parsed.1 hq)
  obtain ⟨axes, haxes, hsub, hiff⟩ := exists_failingAxes houtcome
  refine ⟨axes, haxes, (hsub.trans (sublist_parsed sources)).nodup (by decide), fun axis => ?_⟩
  rw [hiff, hP]
  simp only [mem_parsed]

/-- The axes that are not finite at some sample point are found. -/
theorem exists_broken (fig : p.Figures) (sources : Triple Value) :
    ∃ broken, failingAxes (isFiniteAtSamples p) (parsed sources) = .ok broken ∧
      Lists broken (Broken sources p) := by
  refine exists_lists (fun axis e hparse => ?_) fun axis => ⟨?_, ?_⟩
  · obtain ⟨b, hb, -⟩ := exists_isFiniteAtSamples fig hparse
    exact ⟨b, hb⟩
  · rintro ⟨e, points, t, y, hparse, hpoints, ht, hy, hinfinite⟩
    refine ⟨e, hparse, ?_⟩
    obtain ⟨b, hb, hfinite⟩ := exists_isFiniteAtSamples fig hparse
    obtain rfl := Value.tuple.inj (hpoints.symm.trans fig.samplePoints_eq)
    obtain ⟨x, hx, rfl⟩ := List.mem_map.1 ht
    cases b with
    | false => exact hb
    | true =>
      rw [hfinite.1 rfl x hx y hy] at hinfinite
      cases hinfinite
  · rintro ⟨e, hparse, hfalse⟩
    obtain ⟨b, hb, hfinite⟩ := exists_isFiniteAtSamples fig hparse
    obtain rfl : b = false := Except.ok.inj (hb.symm.trans hfalse)
    simp only [Bool.false_eq_true, false_iff] at hfinite
    push Not at hfinite
    obtain ⟨t, ht, y, hy, hinfinite⟩ := hfinite
    exact ⟨e, _, .real t, y, hparse, fig.samplePoints_eq, List.mem_map_of_mem ht, hy,
      Bool.eq_false_iff.2 hinfinite⟩

/-- The axes that do not close are found, where the policy asks for them. -/
theorem exists_unclosed (fig : p.Figures) (sources : Triple Value) :
    ∃ unclosed, aperiodicAxes p (parsed sources) = .ok unclosed ∧
      Lists unclosed fun axis => p.checkPeriodicity.truthy = true ∧ Open sources p axis := by
  rw [aperiodicAxes]
  split
  · next htruthy =>
    refine exists_lists (fun axis e hparse => ?_) fun axis => ⟨?_, ?_⟩
    · obtain ⟨_, _, -, -, h⟩ := exists_isPeriodic fig hparse
      exact ⟨_, h⟩
    · rintro ⟨-, e, a, b, tolerance, hparse, ha, hb, htolerance, hapart⟩
      refine ⟨e, hparse, ?_⟩
      obtain ⟨a', b', ha', hb', h⟩ := exists_isPeriodic fig hparse
      obtain rfl := Except.ok.inj (ha.symm.trans ha')
      obtain rfl := Except.ok.inj (hb.symm.trans hb')
      obtain rfl := Value.real.inj (htolerance.symm.trans fig.tolerance_eq)
      rw [h]
      simp [hapart]
    · rintro ⟨e, hparse, hfalse⟩
      obtain ⟨a, b, ha, hb, h⟩ := exists_isPeriodic fig hparse
      have hapart := Except.ok.inj (h.symm.trans hfalse)
      exact ⟨htruthy, e, a, b, fig.tolerance, hparse, ha, hb, fig.tolerance_eq,
        by simpa using hapart⟩
  · next htruthy =>
    exact ⟨[], rfl, List.nodup_nil, fun axis => by simp [htruthy]⟩

/-! ## The joint stage -/

/-- Three equations make a curve exactly when all three axes parse. -/
theorem curveOf?_parsed {c : Curve} :
    curveOf? (parsed sources) = some c ↔ Curve.parse sources = .ok c := by
  rw [parsed_eq]
  -- of the eight cases, only that in which all three parse makes either side a curve
  simp only [Axis.all, List.filterMap_cons, List.filterMap_nil, parsedOn?, Curve.parse,
    Curve.parseAxis]
  cases Equation.parse (sources.get .x) <;> cases Equation.parse (sources.get .y) <;>
    cases Equation.parse (sources.get .z) <;>
    simp [Except.toOption, Except.mapError, Except.bind, Except.map, curveOf?]

theorem geometryCurve?_eq_some_iff {broken : List Axis} (hbroken : Lists broken (Broken sources p))
    {c : Curve} : geometryCurve? p (parsed sources) broken = some c ↔ JointDue sources p c := by
  have hempty : broken.isEmpty = true ↔ ∀ axis, ¬ Broken sources p axis := by
    rw [List.isEmpty_iff, List.eq_nil_iff_forall_not_mem]
    exact forall_congr' fun axis => not_congr (hbroken.mem_iff axis)
  rw [geometryCurve?, JointDue]
  split
  · next hdue =>
    rw [Bool.and_eq_true, hempty] at hdue
    rw [curveOf?_parsed]
    exact ⟨fun h => ⟨hdue.1, h, hdue.2⟩, fun h => h.2.1⟩
  · next hdue =>
    rw [Bool.and_eq_true, hempty] at hdue
    constructor
    · intro h
      cases h
    · rintro ⟨htruthy, -, hfinite⟩
      exact absurd ⟨htruthy, hfinite⟩ hdue

/-- What happens at the points of a curve, if there is one to look at. -/
def jointEvents [Machine] (p : ValidationPolicy) : Option Curve → Except Fault (List Event)
  | some c => geometryEvents p c
  | none => .ok []

/-! ## The verdict -/

/-- The findings of a verdict are the failures that it is made of, in one of its lists or the
other. -/
theorem perm_verdictOn (p : ValidationPolicy) (failures : List Failure) (metadata : Fields) :
    ((verdictOn p failures metadata).diagnostics ++ (verdictOn p failures metadata).warnings).Perm
      (failures.map Failure.finding) := by
  have hfilter := List.filter_append_perm (isDemoted p) failures
  have hmap := (List.perm_append_comm.trans hfilter).map Failure.finding
  rwa [List.map_append] at hmap

/-- A run whose first stages have an outcome comes down to its joint stage. -/
theorem run_eq [Machine] {broken unclosed : List Axis}
    (hbroken : failingAxes (isFiniteAtSamples p) (parsed sources) = .ok broken)
    (hunclosed : aperiodicAxes p (parsed sources) = .ok unclosed) :
    run sources p =
      (jointEvents p (geometryCurve? p (parsed sources) broken)).map fun geometry =>
        { events := sourceEvents sources ++
            broken.map (fun axis => .failed (.onAxis .sampleValues axis)) ++
            unclosed.map (fun axis => .failed (.onAxis .periodicity axis)) ++ geometry
          parsedAxes := (parsed sources).map (·.1)
          geometryChecked := (geometryCurve? p (parsed sources) broken).isSome } := by
  simp only [run, hbroken, hunclosed, bind, Except.bind]
  cases geometryCurve? p (parsed sources) broken with
  | none => rfl
  | some c =>
    simp only [jointEvents]
    cases geometryEvents p c <;> rfl

/-- A finding names the axis of its failure, if it has one. -/
theorem axis_comp_finding : Finding.axis ∘ Failure.finding =
    (fun axis? => axis?.elim Value.null fun axis => .text axis.name) ∘ Failure.axis := by
  funext failure
  obtain ⟨check, axis?, text⟩ := failure
  cases axis? <;> rfl

/-- **Every verdict is accounted for by its joint stage**: the stages before it have an outcome
under every policy read from settings, and what they find is one thing for each axis that fails. -/
theorem exists_account [Machine] (fig : p.Figures) (sources : Triple Value) :
    ∃ curve? : Option Curve, (∀ c, curve? = some c ↔ JointDue sources p c) ∧
      (∀ fault, jointEvents p curve? = .error fault → validate sources p = .error fault) ∧
      ∀ events, jointEvents p curve? = .ok events → ∃ v, validate sources p = .ok v ∧
        Nonempty (Account sources p ((Event.failures events).map Failure.finding)
          (v.diagnostics ++ v.warnings)) := by
  obtain ⟨broken, hbroken, hbrokenLists⟩ := exists_broken fig sources
  obtain ⟨unclosed, hunclosed, hunclosedLists⟩ := exists_unclosed fig sources
  obtain ⟨hkind, haxes⟩ := failures_sourceEvents sources
  have hrun := run_eq hbroken hunclosed
  refine ⟨geometryCurve? p (parsed sources) broken,
    fun c => geometryCurve?_eq_some_iff hbrokenLists, fun fault hfault => ?_,
    fun events hevents => ?_⟩
  · rw [validate, hrun, hfault]
    rfl
  · rw [hevents] at hrun
    refine ⟨_, by rw [validate, hrun]; rfl, ⟨{
      syntactic := (Event.failures (sourceEvents sources)).map Failure.finding
      rejected := Axis.all.filter (isRejected sources)
      broken, unclosed
      perm := ?_
      kind_eq := ?_
      axis_eq := ?_
      rejected_lists := lists_isRejected sources
      broken_lists := hbrokenLists
      unclosed_lists := hunclosedLists }⟩⟩
    · refine (perm_verdictOn p _ _).trans (.of_eq ?_)
      simp only [failures_append, failures_map, List.map_append, List.map_map]
      rfl
    · intro f hf
      obtain ⟨failure, hfailure, rfl⟩ := List.mem_map.1 hf
      exact hkind failure hfailure
    · have hnames := haxes.map fun axis? : Option Axis =>
        axis?.elim Value.null fun axis => .text axis.name
      rw [List.map_map, List.map_map] at hnames
      rw [List.map_map, axis_comp_finding]
      exact hnames

/-! ## Reading the account -/

/-- The findings about the joint stage may come in another order. -/
def Account.congr {joint joint' findings : List Finding} (account : Account sources p joint findings)
    (h : joint.Perm joint') : Account sources p joint' findings :=
  { account with perm := account.perm.trans (h.append_left _) }

/-- The findings about texts are those of the first three stages. -/
theorem Account.mem_syntactic {joint findings : List Finding}
    (account : Account sources p joint findings) (hjoint : ∀ f ∈ joint, f.kind = .geometry)
    {f : Finding} : f ∈ account.syntactic ↔ f ∈ findings ∧ f.kind = .grammar := by
  rw [account.perm.mem_iff]
  constructor
  · intro hf
    exact ⟨by simp [hf], account.kind_eq f hf⟩
  · rintro ⟨hf, hkind⟩
    rcases List.mem_append.1 hf with hf | hf
    · rcases List.mem_append.1 hf with hf | hf
      · rcases List.mem_append.1 hf with hf | hf
        · exact hf
        · obtain ⟨axis, -, rfl⟩ := List.mem_map.1 hf
          cases hkind
      · obtain ⟨axis, -, rfl⟩ := List.mem_map.1 hf
        cases hkind
    · rw [hjoint f hf] at hkind
      cases hkind

theorem Account.exists_rejected {joint findings : List Finding}
    (account : Account sources p joint findings) {f : Finding} (hf : f ∈ account.syntactic) :
    ∃ axis, Rejected sources axis ∧ f.axis = .text axis.name := by
  have hmem := account.axis_eq.mem_iff.1 (List.mem_map_of_mem hf)
  obtain ⟨axis, haxis, heq⟩ := List.mem_map.1 hmem
  exact ⟨axis, (account.rejected_lists.mem_iff axis).1 haxis, heq.symm⟩

theorem Account.exists_syntactic {joint findings : List Finding}
    (account : Account sources p joint findings) {axis : Axis} (h : Rejected sources axis) :
    ∃ f ∈ account.syntactic, f.axis = .text axis.name := by
  have hmem : Value.text axis.name ∈ account.rejected.map fun axis => Value.text axis.name :=
    List.mem_map.2 ⟨axis, (account.rejected_lists.mem_iff axis).2 h, rfl⟩
  obtain ⟨f, hf, heq⟩ := List.mem_map.1 (account.axis_eq.mem_iff.2 hmem)
  exact ⟨f, hf, heq⟩

/-- Reading a curve fails at the first axis that does not parse. -/
theorem rejected_of_parse_error {e : DefinitionError} (h : Curve.parse sources = .error e) :
    Rejected sources e.axis ∧
      ∀ axis, Rejected sources axis → Axis.all.idxOf e.axis ≤ Axis.all.idxOf axis := by
  rcases bind_eq_error_iff.1 h with hx | ⟨x, hx, h⟩
  · obtain ⟨fault, hfault, rfl⟩ := mapError_eq_error_iff.1 hx
    exact ⟨⟨fault, hfault⟩, fun axis _ => Nat.zero_le _⟩
  have hx : ¬ Rejected sources .x := fun ⟨fault, hfault⟩ => by
    cases hfault.symm.trans (mapError_eq_ok_iff.1 hx)
  rcases bind_eq_error_iff.1 h with hy | ⟨y, hy, h⟩
  · obtain ⟨fault, hfault, rfl⟩ := mapError_eq_error_iff.1 hy
    refine ⟨⟨fault, hfault⟩, fun axis haxis => ?_⟩
    cases axis with
    | x => exact absurd haxis hx
    | y => exact Nat.le_refl _
    | z => exact Nat.le_succ 1
  have hy : ¬ Rejected sources .y := fun ⟨fault, hfault⟩ => by
    cases hfault.symm.trans (mapError_eq_ok_iff.1 hy)
  obtain ⟨fault, hfault, rfl⟩ := mapError_eq_error_iff.1 (map_eq_error_iff.1 h)
  refine ⟨⟨fault, hfault⟩, fun axis haxis => ?_⟩
  cases axis with
  | x => exact absurd haxis hx
  | y => exact absurd haxis hy
  | z => exact Nat.le_refl _

/-- The equations of a curve are those of its sources. -/
theorem parse_get {c : Curve} (h : Curve.parse sources = .ok c) (axis : Axis) :
    Equation.parse (sources.get axis) = .ok (c.get axis) := by
  obtain ⟨x, hx, h⟩ := bind_eq_ok_iff.1 h
  obtain ⟨y, hy, h⟩ := bind_eq_ok_iff.1 h
  obtain ⟨z, hz, rfl⟩ := map_eq_ok_iff.1 h
  cases axis with
  | x => exact mapError_eq_ok_iff.1 hx
  | y => exact mapError_eq_ok_iff.1 hy
  | z => exact mapError_eq_ok_iff.1 hz

theorem exists_parse_error_iff :
    (∃ e, Curve.parse sources = .error e) ↔ ∃ axis, Rejected sources axis := by
  constructor
  · rintro ⟨e, he⟩
    exact ⟨e.axis, (rejected_of_parse_error he).1⟩
  · rintro ⟨axis, fault, hfault⟩
    cases hparse : Curve.parse sources with
    | error e => exact ⟨e, rfl⟩
    | ok c => cases hfault.symm.trans (parse_get hparse axis)

/-- The account of every verdict there is, with joint findings that are about the geometry. -/
theorem exists_account_of_validate [Machine] (fig : p.Figures) {v : Verdict}
    (h : validate sources p = .ok v) :
    ∃ joint, (∀ f ∈ joint, f.kind = .geometry) ∧
      Nonempty (Account sources p joint (v.diagnostics ++ v.warnings)) := by
  obtain ⟨curve?, -, herror, hok⟩ := exists_account fig sources
  cases hjoint : jointEvents p curve? with
  | error fault => cases h.symm.trans (herror fault hjoint)
  | ok events =>
    obtain ⟨w, hw, haccount⟩ := hok events hjoint
    obtain rfl := Except.ok.inj (h.symm.trans hw)
    refine ⟨_, fun f hf => ?_, haccount⟩
    obtain ⟨failure, hfailure, rfl⟩ := List.mem_map.1 hf
    cases curve? with
    | none =>
      cases hjoint
      cases hfailure
    | some c => exact kind_of_geometryEvents hjoint failure hfailure

end Validation

open Validation in
/-- **What validation finds.**  Under a policy read from settings, three sources of any kind have
these findings and no others, in the two lists of the verdict together: one about the text for each
axis that does not parse; one about the sample values for each axis that parses and is not finite
at some sample point; where the policy asks for it, one about periodicity for each axis that parses
and does not close; and, where the points of the curve are due to be checked, what
`checkGeometry` finds by itself.  Nothing but that last check can keep the verdict from being
returned, and it does not where there is room for the points.

Reading the curve fails exactly when there is a finding about a text, and on the first axis that has
one. -/
theorem validate_accounted [Machine] {settings : Fields} {p : ValidationPolicy}
    (hp : ValidationPolicy.ofSettings settings = .ok p) (sources : Triple Value) :
    ((∀ c, ¬ JointDue sources p c) → ∃ v, validate sources p = .ok v ∧
      Nonempty (Account sources p [] (v.diagnostics ++ v.warnings))) ∧
    (∀ c, JointDue sources p c →
      (∀ n, p.geometrySamples = .int n → Machine.checkRoom n.toNat = .ok () →
        ∃ g, checkGeometry c p = .ok g) ∧
      (∀ fault, checkGeometry c p = .error fault → validate sources p = .error fault) ∧
      ∀ g, checkGeometry c p = .ok g → ∃ v, validate sources p = .ok v ∧
        Nonempty (Account sources p (g.diagnostics ++ g.warnings)
          (v.diagnostics ++ v.warnings))) ∧
    ∀ v, validate sources p = .ok v →
      ((∃ e, Curve.parse sources = .error e) ↔
        ∃ f ∈ v.diagnostics ++ v.warnings, f.kind = .grammar) ∧
      ∀ e, Curve.parse sources = .error e →
        (∃ f ∈ v.diagnostics ++ v.warnings, f.kind = .grammar ∧ f.axis = .text e.axis.name) ∧
        ∀ f ∈ v.diagnostics ++ v.warnings, f.kind = .grammar → ∃ axis : Axis,
          f.axis = .text axis.name ∧ Axis.all.idxOf e.axis ≤ Axis.all.idxOf axis := by
  obtain ⟨fig⟩ := ValidationPolicy.nonempty_figures hp
  obtain ⟨curve?, hcurve, herror, hok⟩ := exists_account fig sources
  refine ⟨fun hdue => ?_, fun c hdue => ?_, fun v hv => ?_⟩
  · cases curve? with
    | none => exact hok [] rfl
    | some c => exact absurd ((hcurve c).1 rfl) (hdue c)
  · obtain rfl := (hcurve c).2 hdue
    refine ⟨fun n hn hroom => ?_, fun fault hfault => ?_, fun g hg => ?_⟩
    · obtain rfl := Value.int.inj (hn.symm.trans fig.samples_eq)
      obtain ⟨events, hevents⟩ :=
        exists_geometryEvents fig (fun axis => ⟨_, parse_get hdue.2.1 axis⟩) hroom
      exact ⟨_, by rw [checkGeometry, hevents]; rfl⟩
    · exact herror fault (map_eq_error_iff.1 hfault)
    · obtain ⟨events, hevents, rfl⟩ := map_eq_ok_iff.1 hg
      obtain ⟨v, hv, ⟨account⟩⟩ := hok events hevents
      exact ⟨v, hv, ⟨account.congr (perm_verdictOn p _ _).symm⟩⟩
  · obtain ⟨joint, hjoint, ⟨account⟩⟩ := exists_account_of_validate fig hv
    refine ⟨⟨fun h => ?_, fun ⟨f, hf, hkind⟩ => ?_⟩, fun e he => ?_⟩
    · obtain ⟨axis, haxis⟩ := exists_parse_error_iff.1 h
      obtain ⟨f, hf, -⟩ := account.exists_syntactic haxis
      exact ⟨f, (account.mem_syntactic hjoint).1 hf⟩
    · obtain ⟨axis, haxis, -⟩ :=
        account.exists_rejected ((account.mem_syntactic hjoint).2 ⟨hf, hkind⟩)
      exact exists_parse_error_iff.2 ⟨axis, haxis⟩
    · obtain ⟨hrejected, hfirst⟩ := rejected_of_parse_error he
      refine ⟨?_, fun f hf hkind => ?_⟩
      · obtain ⟨f, hf, haxis⟩ := account.exists_syntactic hrejected
        obtain ⟨hmem, hkind⟩ := (account.mem_syntactic hjoint).1 hf
        exact ⟨f, hmem, hkind, haxis⟩
      · obtain ⟨axis, haxis, heq⟩ :=
          account.exists_rejected ((account.mem_syntactic hjoint).2 ⟨hf, hkind⟩)
        exact ⟨axis, heq, hfirst axis haxis⟩

/-- Settings as one writes them by hand: numbers in text, a fraction, and an older name. -/
def handwritten : Fields :=
  [("period", .text "2"), ("geometry_samples", .real 4.7), ("max_value", .int 1)]

/-- The policy that they describe. -/
def handwrittenPolicy : ValidationPolicy :=
  { ValidationPolicy.default with
    period := .real 2.0
    geometrySamples := .int 4
    maxMagnitude := .real 1.0 }

/-- A parabola, which does not close. -/
def parabola : Triple Value := ⟨.text "t", .text "t*t", .text "1"⟩

open Validation in
/-- A text that is cut off, a blank one and no text at all have no joint stage; a parabola has one,
and two of its axes have findings of their own. -/
theorem validate_accounted_handwritten :
    letI := Machine.ample
    ValidationPolicy.ofSettings handwritten = .ok handwrittenPolicy ∧
      (∃ v, validate ⟨.text "cos(t", .text " ", .int 3⟩ handwrittenPolicy = .ok v ∧
        Nonempty (Account ⟨.text "cos(t", .text " ", .int 3⟩ handwrittenPolicy []
          (v.diagnostics ++ v.warnings))) ∧
      ∃ c g v, JointDue parabola handwrittenPolicy c ∧
        checkGeometry c handwrittenPolicy = .ok g ∧ validate parabola handwrittenPolicy = .ok v ∧
        v.diagnostics.map (fun f => f.axis.shown) = ["x", "y", "None"] ∧
        Nonempty (Account parabola handwrittenPolicy (g.diagnostics ++ g.warnings)
          (v.diagnostics ++ v.warnings)) := by
  let _ := Machine.ample
  have hp : ValidationPolicy.ofSettings handwritten = .ok handwrittenPolicy := rfl
  refine ⟨hp, (validate_accounted hp _).1 fun c hdue => ?_, ?_⟩
  · have hz : ¬ (Equation.parse (.int 3)).isOk := by decide
    rw [show Equation.parse (.int 3) = _ from parse_get hdue.2.1 .z] at hz
    exact hz rfl
  · have hcurve : (Curve.parse parabola).isOk = true := by decide +kernel
    have hfinite : failingAxes (isFiniteAtSamples handwrittenPolicy) (parsed parabola) = .ok [] := by
      decide +kernel
    have haxes : (validate parabola handwrittenPolicy).map
        (fun v => v.diagnostics.map fun f => f.axis.shown) = .ok ["x", "y", "None"] := by
      decide +kernel
    obtain ⟨fig⟩ := ValidationPolicy.nonempty_figures hp
    obtain ⟨broken, hbroken, hlists⟩ := exists_broken fig parabola
    obtain rfl := Except.ok.inj (hfinite.symm.trans hbroken)
    cases hparse : Curve.parse parabola with
    | error e =>
      rw [hparse] at hcurve
      cases hcurve
    | ok c =>
      have hdue : JointDue parabola handwrittenPolicy c :=
        ⟨rfl, hparse, fun axis h => List.not_mem_nil ((hlists.mem_iff axis).2 h)⟩
      obtain ⟨hroom, -, hverdict⟩ := (validate_accounted hp parabola).2.1 c hdue
      obtain ⟨g, hg⟩ := hroom 4 rfl rfl
      obtain ⟨v, hv, haccount⟩ := hverdict g hg
      rw [hv] at haxes
      exact ⟨c, g, v, hdue, hg, hv, Except.ok.inj haxes, haccount⟩

end SpaceCurve
