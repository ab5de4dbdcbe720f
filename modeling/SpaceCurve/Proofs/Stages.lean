import SpaceCurve.Proofs.Verdicts

/-!
# The findings of a run, place by place

A run goes through its checks stage by stage, and within a stage from axis to axis, over lists of
axes that become shorter on the way.  Here the same findings are read off a table.

## What is here

* `complaint? p source check` — what a check has to say about one source.  It is asked of a check
  and a source alone: whether the axis has got as far as the check is decided by the source too.
* `places` — the pairs of a check and an axis in the order of the run, and `failureAt?`, the failure
  at a place.
* `dueCurve?` — the curve whose points are checked after that.
* `validate_eq` — **the verdict is the one on the failures of all places in order, followed by those
  at the points of the curve.**  Whatever two runs have to do with each other can be said of places.
  `exists_joint_of_validate` is the same for a policy that was not read from settings, of whose
  verdicts it is not known whether they are returned.
* `HasRoom` — there is room for the points that the policy asks for, which is all that a verdict can
  want for.
-/

set_option autoImplicit false

namespace SpaceCurve

/-- There is room for as many points as the policy asks for. -/
def ValidationPolicy.HasRoom [Machine] (p : ValidationPolicy) : Prop :=
  ∃ n : Nat, p.geometrySamples = .int n ∧ Machine.checkRoom n = .ok ()

theorem ValidationPolicy.HasRoom.checkRoom [Machine] {p : ValidationPolicy} (h : p.HasRoom)
    (fig : p.Figures) : Machine.checkRoom fig.samples.toNat = .ok () := by
  obtain ⟨n, hn, hroom⟩ := h
  have hsamples := hn.symm.trans fig.geometrySamples_eq
  rw [← Int.ofNat.inj (Value.int.inj hsamples)]
  exact hroom

/-- With room for the points there is a verdict on any three sources. -/
theorem exists_validate_of_hasRoom [Machine] {p : ValidationPolicy} (fig : p.Figures)
    (h : p.HasRoom) (sources : Triple Value) : ∃ v, validate sources p = .ok v :=
  exists_validate fig (h.checkRoom fig) sources

namespace Validation

variable {p : ValidationPolicy} {sources : Triple Value}

/-! ## What a check has to say about a source -/

/-- Whether an equation fails a check on values. -/
def fails (passes : Equation → Except Fault Bool) (e : Equation) : Bool :=
  match passes e with
  | .ok passed => !passed
  | .error _ => false

/-- Whether a source parses and its equation fails a check on values. -/
def parsesAndFails (passes : Equation → Except Fault Bool) (source : Value) : Bool :=
  match Equation.parse source with
  | .ok e => fails passes e
  | .error _ => false

/-- What is wrong with the grammar of a source, if its equation does not parse. -/
def grammarComplaint? (source : Value) : Option String :=
  match Equation.parse source with
  | .ok _ => none
  | .error e => some (Check.grammarText e)

/-- What a check on one axis says when the axis has this source; nothing if the check passes, or if
it is not reached. -/
def complaint? (p : ValidationPolicy) (source : Value) : Check → Option String
  | .empty => if !isPresent source then some (Check.failedText .empty) else none
  | .parentheses =>
    if isPresent source && !isBalanced source then some (Check.failedText .parentheses) else none
  | .grammar =>
    if isPresent source && isBalanced source then grammarComplaint? source else none
  | .sampleValues =>
    if parsesAndFails (isFiniteAtSamples p) source then some (Check.failedText .sampleValues)
    else none
  | .periodicity =>
    if p.checkPeriodicity.truthy && parsesAndFails (isPeriodic p) source then
      some (Check.failedText .periodicity)
    else none
  | .degenerate => none
  | .magnitude => none

/-! ## Places -/

/-- The checks on one axis, in the order of their stages. -/
def axisChecks : List Check := [.empty, .parentheses, .grammar, .sampleValues, .periodicity]

/-- The places of a run: all axes for the first check, then all axes for the next one. -/
def places : List (Check × Axis) := axisChecks.product Axis.all

/-- The failure at a place. -/
def failureAt? (p : ValidationPolicy) (sources : Triple Value) (place : Check × Axis) :
    Option Failure :=
  (complaint? p (sources.get place.2) place.1).map fun text => ⟨place.1, some place.2, text⟩

/-- What happens at the places is what happens for one check after another. -/
theorem filterMap_places {α : Type} (f : Check × Axis → Option α) :
    places.filterMap f = axisChecks.flatMap fun check =>
      Axis.all.filterMap fun axis => f (check, axis) := by
  simp only [places, List.product, List.filterMap_flatMap, List.filterMap_map, Function.comp_def]

/-- The axes on which a check fails, by a test of the source. -/
theorem map_onAxis_filter (check : Check) (test : Value → Bool) (axes : List Axis) :
    (axes.filter fun axis => test (sources.get axis)).map (Failure.onAxis check) =
      axes.filterMap fun axis =>
        (if test (sources.get axis) then some check.failedText else none).map
          fun text => ⟨check, some axis, text⟩ := by
  induction axes with
  | nil => rfl
  | cons axis rest ih =>
    by_cases htest : test (sources.get axis) = true
    · simp [htest, ih, Failure.onAxis]
    · simp [htest, ih]

theorem failures_parseEvents_eq (sources : Triple Value) (axes : List Axis) :
    Event.failures (axes.flatMap (parseEvents sources)) =
      axes.filterMap fun axis => (grammarComplaint? (sources.get axis)).map
        fun text => ⟨.grammar, some axis, text⟩ := by
  induction axes with
  | nil => rfl
  | cons axis rest ih =>
    rw [List.flatMap_cons, failures_append, ih, List.filterMap_cons, parseEvents,
      grammarComplaint?]
    cases Equation.parse (sources.get axis) <;> rfl

/-- **The first three stages, place by place.** -/
theorem failures_sourceEvents_eq (p : ValidationPolicy) (sources : Triple Value) :
    Event.failures (sourceEvents sources) =
      [Check.empty, .parentheses, .grammar].flatMap fun check =>
        Axis.all.filterMap fun axis => failureAt? p sources (check, axis) := by
  have hunbalanced : unbalanced sources = Axis.all.filter fun axis =>
      isPresent (sources.get axis) && !isBalanced (sources.get axis) := by
    rw [unbalanced, present, List.filter_filter]
    simp only [Bool.and_comm]
  have hbalanced : balanced sources = Axis.all.filter fun axis =>
      isPresent (sources.get axis) && isBalanced (sources.get axis) := by
    rw [balanced, present, List.filter_filter]
    simp only [Bool.and_comm]
  have hgrammar : ∀ axis, (if isPresent (sources.get axis) && isBalanced (sources.get axis) then
      (grammarComplaint? (sources.get axis)).map
        fun text => (⟨.grammar, some axis, text⟩ : Failure) else none) =
      failureAt? p sources (.grammar, axis) := by
    intro axis
    rw [failureAt?, complaint?]
    split <;> rfl
  rw [sourceEvents, failures_append, failures_append, failures_map, failures_map,
    failures_parseEvents_eq, absent, hunbalanced, hbalanced,
    map_onAxis_filter .empty fun source => !isPresent source,
    map_onAxis_filter .parentheses fun source => isPresent source && !isBalanced source,
    List.filterMap_filter]
  simp only [hgrammar, List.flatMap_cons, List.flatMap_nil, List.append_nil, List.append_assoc]
  rfl

/-! ## The checks on values -/

theorem failingAxes_eq {passes : Equation → Except Fault Bool}
    {equations : List (Axis × Equation)} {axes : List Axis}
    (h : failingAxes passes equations = .ok axes) :
    axes = (equations.filter fun q => fails passes q.2).map (·.1) := by
  induction equations generalizing axes with
  | nil =>
    cases h
    rfl
  | cons q rest ih =>
    obtain ⟨passed, hpassed, h⟩ := bind_eq_ok_iff.1 h
    obtain ⟨others, hothers, rfl⟩ := map_eq_ok_iff.1 h
    rw [List.filter_cons, fails, hpassed, ih hothers]
    cases passed <;> rfl

/-- The axes that fail a check on values are those whose sources parse and fail it. -/
theorem failingAxes_parsed {passes : Equation → Except Fault Bool} {axes : List Axis}
    (h : failingAxes passes (parsed sources) = .ok axes) :
    axes = Axis.all.filter fun axis => parsesAndFails passes (sources.get axis) := by
  have hgeneral : ∀ all : List Axis,
      ((all.filterMap (parsedOn? sources)).filter fun q => fails passes q.2).map (·.1) =
        all.filter fun axis => parsesAndFails passes (sources.get axis) := by
    intro all
    induction all with
    | nil => rfl
    | cons axis rest ih =>
      rw [List.filterMap_cons, List.filter_cons, parsedOn?, parsesAndFails, ← ih]
      cases Equation.parse (sources.get axis) with
      | error fault => rfl
      | ok e =>
        simp only [Except.toOption, Option.map_some, List.filter_cons]
        split <;> rfl
  rw [failingAxes_eq h, parsed_eq]
  exact hgeneral Axis.all

/-- The axes that are not finite at some sample point. -/
def brokenAxes (p : ValidationPolicy) (sources : Triple Value) : List Axis :=
  Axis.all.filter fun axis => parsesAndFails (isFiniteAtSamples p) (sources.get axis)

/-- The axes that are found not to be periodic. -/
def unclosedAxes (p : ValidationPolicy) (sources : Triple Value) : List Axis :=
  Axis.all.filter fun axis =>
    p.checkPeriodicity.truthy && parsesAndFails (isPeriodic p) (sources.get axis)

theorem aperiodicAxes_parsed {axes : List Axis} (h : aperiodicAxes p (parsed sources) = .ok axes) :
    axes = unclosedAxes p sources := by
  rw [aperiodicAxes] at h
  rw [unclosedAxes]
  by_cases htruthy : p.checkPeriodicity.truthy = true
  · rw [if_pos htruthy] at h
    simp only [htruthy, Bool.true_and]
    exact failingAxes_parsed h
  · rw [if_neg htruthy] at h
    cases h
    simp [htruthy]

/-- The curve whose points are checked, if they are. -/
def dueCurve? (p : ValidationPolicy) (sources : Triple Value) : Option Curve :=
  geometryCurve? p (parsed sources) (brokenAxes p sources)

theorem lists_brokenAxes (fig : p.Figures) (sources : Triple Value) :
    Lists (brokenAxes p sources) (Broken sources p) := by
  obtain ⟨broken, hbroken, hlists⟩ := exists_broken fig sources
  rw [brokenAxes, ← failingAxes_parsed hbroken]
  exact hlists

theorem dueCurve?_eq_some_iff (fig : p.Figures) {c : Curve} :
    dueCurve? p sources = some c ↔ JointDue sources p c :=
  geometryCurve?_eq_some_iff (lists_brokenAxes fig sources)

/-! ## The verdict -/

/-- All failures of a run, where `joint` happens at the points of the curve. -/
def allFailures (p : ValidationPolicy) (sources : Triple Value) (joint : List Event) :
    List Failure :=
  places.filterMap (failureAt? p sources) ++ Event.failures joint

/-- What is noted about a run. -/
def runNotes (p : ValidationPolicy) (sources : Triple Value) : Fields :=
  [("parsed_axes", .list (((parsed sources).map (·.1)).map fun axis => .text axis.name)),
    ("geometry_checked", .bool (dueCurve? p sources).isSome),
    ("strict_geometry", p.strictGeometry)]

variable [Machine]

/-- Once the checks on values have an outcome, the verdict comes down to the points of the curve. -/
theorem validate_eq_of_outcomes {broken unclosed : List Axis}
    (hbroken : failingAxes (isFiniteAtSamples p) (parsed sources) = .ok broken)
    (hunclosed : aperiodicAxes p (parsed sources) = .ok unclosed) :
    validate sources p = (jointEvents p (dueCurve? p sources)).map fun joint =>
      verdictOn p (allFailures p sources joint) (runNotes p sources) := by
  have hrun := run_eq hbroken hunclosed
  obtain rfl : broken = brokenAxes p sources := failingAxes_parsed hbroken
  obtain rfl := aperiodicAxes_parsed hunclosed
  have hplaces : Event.failures (sourceEvents sources) ++
      (brokenAxes p sources).map (Failure.onAxis .sampleValues) ++
      (unclosedAxes p sources).map (Failure.onAxis .periodicity) =
        places.filterMap (failureAt? p sources) := by
    rw [failures_sourceEvents_eq p, brokenAxes, unclosedAxes, filterMap_places,
      map_onAxis_filter .sampleValues (parsesAndFails (isFiniteAtSamples p)),
      map_onAxis_filter .periodicity fun source =>
        p.checkPeriodicity.truthy && parsesAndFails (isPeriodic p) source]
    simp only [axisChecks, List.flatMap_cons, List.flatMap_nil, List.append_nil, List.append_assoc]
    rfl
  rw [validate, hrun]
  change ((jointEvents p (dueCurve? p sources)).map _).map _ = _
  cases jointEvents p (dueCurve? p sources) with
  | error fault => rfl
  | ok joint =>
    simp only [Except.map, Run.verdict, failures_append, failures_map, hplaces]
    rfl

/-- **The verdict is the one on the failures of all places in order**, followed by those at the
points of the curve. -/
theorem validate_eq (fig : p.Figures) (sources : Triple Value) :
    validate sources p = (jointEvents p (dueCurve? p sources)).map fun joint =>
      verdictOn p (allFailures p sources joint) (runNotes p sources) := by
  obtain ⟨broken, hbroken, -⟩ := exists_broken fig sources
  obtain ⟨unclosed, hunclosed, -⟩ := exists_unclosed fig sources
  exact validate_eq_of_outcomes hbroken hunclosed

/-- The same holds of every verdict that is returned, whatever the policy is made of. -/
theorem exists_joint_of_validate {v : Verdict} (h : validate sources p = .ok v) :
    ∃ joint, jointEvents p (dueCurve? p sources) = .ok joint ∧
      v = verdictOn p (allFailures p sources joint) (runNotes p sources) := by
  obtain ⟨r, hr, -⟩ := map_eq_ok_iff.1 h
  obtain ⟨broken, hbroken, hr⟩ := bind_eq_ok_iff.1 hr
  obtain ⟨unclosed, hunclosed, -⟩ := bind_eq_ok_iff.1 hr
  rw [validate_eq_of_outcomes hbroken hunclosed] at h
  obtain ⟨joint, hjoint, rfl⟩ := map_eq_ok_iff.1 h
  exact ⟨joint, hjoint, rfl⟩

end Validation
end SpaceCurve
