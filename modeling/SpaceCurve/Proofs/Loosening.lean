import SpaceCurve.Proofs.Columns
import SpaceCurve.Proofs.FloatOrder
import SpaceCurve.Proofs.Stages

/-!
# Two policies and one curve

What becomes of the findings on a curve when the policy changes.

* **Strictness.**  A policy that is not strict takes the same way through all stages as one that is,
  and puts what it finds about the geometry into the other list: `Demoted`.  Nothing is lost on the
  way, and no finding of another kind is demoted (`validate_demoted`).
* **Thresholds.**  A policy that `Loosens` another one allows more: its tolerance for periodicity
  and its bound are larger, its tolerance for degeneracy is smaller, and it asks for no check that
  the other does not ask for.  Every failure under it is a failure under the other, place by place
  (`allFailures_sublist`), so the diagnostics are among those of the other in the same order.

The sample points of both policies have to be the same floats.  It is not enough that they are equal
numbers, since zero and minus zero are, and there are equations that are finite at only one of them
(`not_loosened_of_equals`).
-/

set_option autoImplicit false

namespace SpaceCurve

/-- The policy made strict, or not. -/
def ValidationPolicy.withStrictness (p : ValidationPolicy) (strict : Bool) : ValidationPolicy :=
  { p with strictGeometry := .bool strict }

/-- The second verdict is the first one with its findings about the geometry demoted. -/
structure Demoted (s l : Verdict) : Prop where
  warnings_eq_nil : s.warnings = []
  diagnostics_eq : l.diagnostics = s.diagnostics.filter fun f => f.kind != .geometry
  warnings_eq : l.warnings = s.diagnostics.filter fun f => f.kind == .geometry
  perm : (l.diagnostics ++ l.warnings).Perm s.diagnostics
  parsedAxes_eq : l.metadata.get? "parsed_axes" = s.metadata.get? "parsed_axes"
  geometryChecked_eq : l.metadata.get? "geometry_checked" = s.metadata.get? "geometry_checked"

/-- Two outcomes are the same fault, or two verdicts of which the second is the first one demoted. -/
inductive Demotes : Except Fault Verdict → Except Fault Verdict → Prop
  | fault (fault : Fault) : Demotes (.error fault) (.error fault)
  | verdicts {s l : Verdict} (h : Demoted s l) : Demotes (.ok s) (.ok l)

namespace Validation

variable {p q : ValidationPolicy} {sources : Triple Value}

/-! ## Strictness -/

theorem isDemoted_strict (p : ValidationPolicy) :
    isDemoted (p.withStrictness true) = fun _ => false := by
  funext f
  simp [isDemoted, ValidationPolicy.withStrictness, Value.truthy]

theorem isDemoted_lenient (p : ValidationPolicy) :
    isDemoted (p.withStrictness false) = fun f => f.check.kind == .geometry := by
  funext f
  simp [isDemoted, ValidationPolicy.withStrictness, Value.truthy]

/-- **The same failures, with and without strictness.** -/
theorem demoted_verdictOn (p : ValidationPolicy) (failures : List Failure) {notes notes' : Fields}
    (hparsed : notes'.get? "parsed_axes" = notes.get? "parsed_axes")
    (hchecked : notes'.get? "geometry_checked" = notes.get? "geometry_checked") :
    Demoted (verdictOn (p.withStrictness true) failures notes)
      (verdictOn (p.withStrictness false) failures notes') := by
  have hstrict : (verdictOn (p.withStrictness true) failures notes).diagnostics =
      failures.map Failure.finding := by
    simp [verdictOn, isDemoted_strict]
  have hdiagnostics : (verdictOn (p.withStrictness false) failures notes').diagnostics =
      (failures.map Failure.finding).filter fun f => f.kind != .geometry := by
    rw [List.filter_map, verdictOn, isDemoted_lenient]
    rfl
  have hwarnings : (verdictOn (p.withStrictness false) failures notes').warnings =
      (failures.map Failure.finding).filter fun f => f.kind == .geometry := by
    rw [List.filter_map, verdictOn, isDemoted_lenient]
    rfl
  refine ⟨?_, ?_, ?_, ?_, hparsed, hchecked⟩
  · simp [verdictOn, isDemoted_strict]
  · rw [hdiagnostics, hstrict]
  · rw [hwarnings, hstrict]
  · rw [hdiagnostics, hwarnings, hstrict]
    exact List.perm_append_comm.trans (List.filter_append_perm _ _)

/-- Nothing but the verdict itself looks at the strictness of a policy. -/
theorem demotes_validate [Machine] (fig : p.Figures) (sources : Triple Value) :
    Demotes (validate sources (p.withStrictness true))
      (validate sources (p.withStrictness false)) := by
  have hstrict := validate_eq (fig.withStrictness (.bool true)) sources
  have hlenient := validate_eq (fig.withStrictness (.bool false)) sources
  have hjoint : jointEvents { p with strictGeometry := .bool false }
      (dueCurve? { p with strictGeometry := .bool false } sources) =
        jointEvents { p with strictGeometry := .bool true }
          (dueCurve? { p with strictGeometry := .bool true } sources) := rfl
  rw [ValidationPolicy.withStrictness, ValidationPolicy.withStrictness, hstrict, hlenient, hjoint]
  cases jointEvents { p with strictGeometry := .bool true }
      (dueCurve? { p with strictGeometry := .bool true } sources) with
  | error fault => exact .fault fault
  | ok joint => exact .verdicts (demoted_verdictOn p (allFailures p sources joint) rfl rfl)

theorem demotes_checkGeometry [Machine] (p : ValidationPolicy) (c : Curve) :
    Demotes (checkGeometry c (p.withStrictness true))
      (checkGeometry c (p.withStrictness false)) := by
  have hevents : ∀ strict, geometryEvents (p.withStrictness strict) c = geometryEvents p c :=
    fun _ => rfl
  rw [checkGeometry, checkGeometry, hevents, hevents]
  cases geometryEvents p c with
  | error fault => exact .fault fault
  | ok events => exact .verdicts (demoted_verdictOn p (Event.failures events) rfl rfl)

end Validation

open Validation in
/-- **Leniency only demotes.**  Under a policy read from settings, made strict and made lenient, any
three sources end in the same fault or in two verdicts.  The strict one has no warnings; the lenient
one has its findings about the geometry as warnings and the rest of them as diagnostics, both in the
order in which they were.  The axes that parse are the same, and so is whether the points of the
curve were checked.  The same is true of the check on the points of a curve alone.  With room for
the points there are verdicts. -/
theorem validate_demoted [Machine] {settings : Fields} {p : ValidationPolicy}
    (hp : ValidationPolicy.ofSettings settings = .ok p) :
    (∀ sources, Demotes (validate sources (p.withStrictness true))
      (validate sources (p.withStrictness false))) ∧
    (∀ c, Demotes (checkGeometry c (p.withStrictness true))
      (checkGeometry c (p.withStrictness false))) ∧
    (p.HasRoom → (∀ sources, ∃ s, validate sources (p.withStrictness true) = .ok s) ∧
      ∀ c : Curve, c.Parsed → ∃ s, checkGeometry c (p.withStrictness true) = .ok s) := by
  obtain ⟨fig⟩ := ValidationPolicy.nonempty_figures hp
  refine ⟨demotes_validate fig, demotes_checkGeometry p, fun hroom => ⟨fun sources => ?_, ?_⟩⟩
  · exact exists_validate_of_hasRoom (fig.withStrictness (.bool true)) hroom sources
  · intro c hc
    exact exists_checkGeometry (fig.withStrictness (.bool true)) hc (hroom.checkRoom fig)

/-- A line that does not close, a pole at a sample point, and a text that is cut off. -/
def mixedFaults : Triple Value := ⟨.text "t", .text "1/t", .text "sin("⟩

theorem validate_demoted_mixed :
    letI := Machine.ample
    ValidationPolicy.ofSettings [] = .ok .default ∧
      ∃ s l, validate mixedFaults (ValidationPolicy.default.withStrictness true) = .ok s ∧
        validate mixedFaults (ValidationPolicy.default.withStrictness false) = .ok l ∧
        s.diagnostics.map Finding.kind = [.grammar, .evaluation, .geometry, .geometry] ∧
        Demoted s l := by
  let _ := Machine.ample
  have hp : ValidationPolicy.ofSettings [] = .ok .default := rfl
  have hkinds : (validate mixedFaults (ValidationPolicy.default.withStrictness true)).map
      (fun v => v.diagnostics.map Finding.kind) =
        .ok [.grammar, .evaluation, .geometry, .geometry] := by
    decide +kernel
  obtain ⟨s, hs, hskinds⟩ := map_eq_ok_iff.1 hkinds
  have hdemotes := (validate_demoted hp).1 mixedFaults
  rw [hs] at hdemotes
  generalize hl : validate mixedFaults (ValidationPolicy.default.withStrictness false) = lenient
    at hdemotes
  cases hdemotes with
  | verdicts h => exact ⟨hp, s, _, hs, rfl, hskinds, h⟩

/-! ## Thresholds -/

/-- The second policy allows what the first one allows, wherever it looks. -/
structure Allows (p q : ValidationPolicy) : Prop where
  period_eq : q.period = p.period
  geometrySamples_eq : q.geometrySamples = p.geometrySamples
  tolerance_le : ∃ a b, p.periodicityTolerance = .real a ∧ q.periodicityTolerance = .real b ∧ a ≤ b
  magnitude_le : ∃ a b, p.maxMagnitude = .real a ∧ q.maxMagnitude = .real b ∧ a ≤ b
  degeneracy_le : ∃ a b, p.degeneracyTolerance = .real a ∧ q.degeneracyTolerance = .real b ∧ b ≤ a
  checkPeriodicity : q.checkPeriodicity.truthy = true → p.checkPeriodicity.truthy = true
  checkGeometry : q.checkGeometry.truthy = true → p.checkGeometry.truthy = true
  strictGeometry : q.strictGeometry.truthy = true → p.strictGeometry.truthy = true

/-- The second policy allows what the first one allows, and looks at the same sample points. -/
structure Loosens (p q : ValidationPolicy) : Prop extends Allows p q where
  samplePoints_eq : q.samplePoints = p.samplePoints

/-- A column that is flat is flat for a larger tolerance. -/
theorem IsFlat.mono {a b : Float} (h : b ≤ a) {column : List Float} (hflat : IsFlat b column) :
    IsFlat a column := by
  intro first hfirst x hx
  exact Binary64.lt_of_lt_of_le (hflat first hfirst x hx) h

/-- A column within a bound is within a larger one. -/
theorem IsBounded.mono {a b : Float} (h : a ≤ b) {column : List Float}
    (hbounded : IsBounded a column) : IsBounded b column := by
  intro x hx hlarge
  exact hbounded x hx (Binary64.lt_of_le_of_lt h hlarge)

/-- What one function selects and another one selects as well, it selects in the same order. -/
theorem filterMap_sublist {α β : Type} {f g : α → Option β}
    (h : ∀ x b, f x = some b → g x = some b) (xs : List α) :
    (xs.filterMap f).Sublist (xs.filterMap g) := by
  induction xs with
  | nil => exact .slnil
  | cons x xs ih =>
    rw [List.filterMap_cons, List.filterMap_cons]
    cases hf : f x with
    | some b =>
      rw [h x b hf]
      exact ih.cons_cons b
    | none =>
      cases g x with
      | none => exact ih
      | some b => exact ih.cons b

namespace Validation

variable {p q : ValidationPolicy} {sources : Triple Value}

/-- The numbers in two policies of which the second one allows more. -/
structure FiguresAllow (figp : p.Figures) (figq : q.Figures) : Prop where
  samples_eq : figq.samples = figp.samples
  period_eq : figq.period = figp.period
  tolerance_le : figp.tolerance ≤ figq.tolerance
  magnitude_le : figp.magnitude ≤ figq.magnitude
  degeneracy_le : figq.degeneracy ≤ figp.degeneracy

theorem figuresAllow (h : Allows p q) (figp : p.Figures) (figq : q.Figures) :
    FiguresAllow figp figq := by
  obtain ⟨a, a', ha, ha', htolerance⟩ := h.tolerance_le
  obtain ⟨b, b', hb, hb', hmagnitude⟩ := h.magnitude_le
  obtain ⟨c, c', hc, hc', hdegeneracy⟩ := h.degeneracy_le
  obtain rfl := Value.real.inj (ha.symm.trans figp.tolerance_eq)
  obtain rfl := Value.real.inj (ha'.symm.trans figq.tolerance_eq)
  obtain rfl := Value.real.inj (hb.symm.trans figp.magnitude_eq)
  obtain rfl := Value.real.inj (hb'.symm.trans figq.magnitude_eq)
  obtain rfl := Value.real.inj (hc.symm.trans figp.degeneracy_eq)
  obtain rfl := Value.real.inj (hc'.symm.trans figq.degeneracy_eq)
  refine ⟨Value.int.inj ?_, Value.real.inj ?_, htolerance, hmagnitude, hdegeneracy⟩
  · rw [← figq.samples_eq, ← figp.samples_eq, h.geometrySamples_eq]
  · rw [← figq.period_eq, ← figp.period_eq, h.period_eq]

/-- An equation that closes closes for a larger tolerance. -/
theorem fails_isPeriodic (h : Allows p q) (figp : p.Figures) (figq : q.Figures) {source : Value}
    {e : Equation} (he : Equation.parse source = .ok e) (hfails : fails (isPeriodic q) e = true) :
    fails (isPeriodic p) e = true := by
  obtain ⟨a, b, ha, hb, hp⟩ := exists_isPeriodic figp he
  obtain ⟨a', b', ha', hb', hq⟩ := exists_isPeriodic figq he
  rw [h.period_eq] at hb'
  obtain rfl := Except.ok.inj (ha.symm.trans ha')
  obtain rfl := Except.ok.inj (hb.symm.trans hb')
  rw [fails, hq] at hfails
  rw [fails, hp]
  simp only [Bool.not_not, decide_eq_true_eq] at hfails ⊢
  exact Binary64.lt_of_le_of_lt (figuresAllow h figp figq).tolerance_le hfails

theorem isFiniteAtSamples_eq (h : Loosens p q) : isFiniteAtSamples q = isFiniteAtSamples p := by
  funext e
  rw [isFiniteAtSamples, isFiniteAtSamples, h.samplePoints_eq]

/-- **A check that complains under the looser policy makes the same complaint under the other.** -/
theorem complaint?_of_loosens (h : Loosens p q) (figp : p.Figures) (figq : q.Figures)
    {source : Value} {check : Check} {text : String}
    (hq : complaint? q source check = some text) : complaint? p source check = some text := by
  cases check with
  | empty => exact hq
  | parentheses => exact hq
  | grammar => exact hq
  | sampleValues =>
    rw [complaint?, isFiniteAtSamples_eq h] at hq
    exact hq
  | periodicity =>
    rw [complaint?] at hq ⊢
    split at hq
    · next hboth =>
      rw [Bool.and_eq_true] at hboth
      obtain ⟨hasked, hfails⟩ := hboth
      have hfailsp : parsesAndFails (isPeriodic p) source = true := by
        rw [parsesAndFails] at hfails ⊢
        cases hparse : Equation.parse source with
        | error fault => simp [hparse] at hfails
        | ok e =>
          rw [hparse] at hfails
          exact fails_isPeriodic h.toAllows figp figq hparse hfails
      rw [h.checkPeriodicity hasked, hfailsp]
      exact hq
    · cases hq
  | degenerate => cases hq
  | magnitude => cases hq

theorem failureAt?_of_loosens (h : Loosens p q) (figp : p.Figures) (figq : q.Figures)
    (place : Check × Axis) (f : Failure) (hq : failureAt? q sources place = some f) :
    failureAt? p sources place = some f := by
  obtain ⟨text, htext, rfl⟩ := Option.map_eq_some_iff.1 hq
  rw [failureAt?, complaint?_of_loosens h figp figq htext]
  rfl

/-- The points are checked under the looser policy only where they are checked under the other. -/
theorem dueCurve?_of_loosens (h : Loosens p q) {c : Curve} (hq : dueCurve? q sources = some c) :
    dueCurve? p sources = some c := by
  rw [dueCurve?, geometryCurve?, brokenAxes, isFiniteAtSamples_eq h] at hq
  split at hq
  · next hdue =>
    rw [Bool.and_eq_true] at hdue
    rw [dueCurve?, geometryCurve?, brokenAxes, h.checkGeometry hdue.1, hdue.2]
    exact hq
  · cases hq

theorem jointFailures_sublist {d d' b b' : Bool} (hd : d' = true → d = true)
    (hb : b = true → b' = true) : (jointFailures d' b').Sublist (jointFailures d b) := by
  revert hd hb
  cases d <;> cases d' <;> cases b <;> cases b' <;> simp [jointFailures]

/-- **What is found at the points under the looser policy is found under the other.** -/
theorem exists_geometryEvents_of_allows [Machine] (h : Allows p q) (figp : p.Figures)
    (figq : q.Figures) {c : Curve} (hc : c.Parsed) {joint : List Event} (hp : geometryEvents p c = .ok joint) :
    ∃ joint', geometryEvents q c = .ok joint' ∧
      (Event.failures joint').Sublist (Event.failures joint) := by
  have hallow := figuresAllow h figp figq
  have hparameters : parameters figq = parameters figp := by
    rw [parameters, parameters, hallow.samples_eq, hallow.period_eq]
  have hroom : Machine.checkRoom figp.samples.toNat = .ok () := by
    cases hcheck : Machine.checkRoom figp.samples.toNat with
    | ok u => rfl
    | error cause => cases hp.symm.trans (geometryEvents_of_noRoom figp hcheck)
  obtain ⟨events, d, b, hevents, hfailures, hd, hb⟩ := exists_geometryEvents_columns figp hc hroom
  obtain rfl := Except.ok.inj (hp.symm.trans hevents)
  obtain ⟨joint', d', b', hevents', hfailures', hd', hb'⟩ :=
    exists_geometryEvents_columns figq hc (hallow.samples_eq.symm ▸ hroom)
  rw [hparameters] at hd' hb'
  refine ⟨joint', hevents', ?_⟩
  rw [hfailures, hfailures']
  refine jointFailures_sublist (fun hflat => ?_) fun hbounded => ?_
  · exact hd.2 fun axis => (hd'.1 hflat axis).mono hallow.degeneracy_le
  · exact hb'.2 fun axis => (hb.1 hbounded axis).mono hallow.magnitude_le

/-- **The failures under the looser policy are among those under the other**, in the same order. -/
theorem allFailures_sublist [Machine] (h : Loosens p q) (figp : p.Figures) (figq : q.Figures)
    {joint : List Event} (hp : jointEvents p (dueCurve? p sources) = .ok joint) :
    ∃ joint', jointEvents q (dueCurve? q sources) = .ok joint' ∧
      (allFailures q sources joint').Sublist (allFailures p sources joint) := by
  have hplaces : (places.filterMap (failureAt? q sources)).Sublist
      (places.filterMap (failureAt? p sources)) :=
    filterMap_sublist (failureAt?_of_loosens h figp figq) places
  cases hq : dueCurve? q sources with
  | none => exact ⟨[], rfl, hplaces.append (List.nil_sublist _)⟩
  | some c =>
    have hdue : JointDue sources q c := (dueCurve?_eq_some_iff figq).1 hq
    rw [dueCurve?_of_loosens h hq] at hp
    obtain ⟨joint', hjoint', hsub⟩ := exists_geometryEvents_of_allows h.toAllows figp figq
      (fun axis => ⟨_, parse_get hdue.2.1 axis⟩) hp
    exact ⟨joint', hjoint', hplaces.append hsub⟩

/-- What is no warning under the looser policy is none under the other. -/
theorem isDemoted_of_loosens (h : Loosens p q) (f : Failure) (hq : (!isDemoted q f) = true) :
    (!isDemoted p f) = true := by
  simp only [isDemoted, Bool.not_and, Bool.not_not, Bool.or_eq_true] at hq ⊢
  exact hq.imp_right h.strictGeometry

end Validation

open Validation in
/-- **Loosening a policy never creates a finding.**  Let two policies be read from settings, the
second one looser than the first.  Whenever three sources have a verdict under the first policy,
which they have if there is room for the points, they have one under the second.  Its diagnostics
are some of those under the first policy, in the same order; so what is valid stays valid. -/
theorem validate_loosened [Machine] {settings settings' : Fields} {p q : ValidationPolicy}
    (hp : ValidationPolicy.ofSettings settings = .ok p)
    (hq : ValidationPolicy.ofSettings settings' = .ok q) (h : Loosens p q)
    (sources : Triple Value) :
    (p.HasRoom → ∃ v, validate sources p = .ok v) ∧
      ∀ v, validate sources p = .ok v → ∃ w, validate sources q = .ok w ∧
        w.diagnostics.Sublist v.diagnostics ∧ (v.isValid = true → w.isValid = true) := by
  obtain ⟨figp⟩ := ValidationPolicy.nonempty_figures hp
  obtain ⟨figq⟩ := ValidationPolicy.nonempty_figures hq
  refine ⟨fun hroom => exists_validate_of_hasRoom figp hroom sources, fun v hv => ?_⟩
  rw [validate_eq figp] at hv
  obtain ⟨joint, hjoint, rfl⟩ := map_eq_ok_iff.1 hv
  obtain ⟨joint', hjoint', hsub⟩ := allFailures_sublist h figp figq hjoint
  have hdiagnostics := ((hsub.filter fun f => !isDemoted q f).trans
    (List.monotone_filter_right _ (isDemoted_of_loosens h))).map Failure.finding
  refine ⟨_, by rw [validate_eq figq, hjoint']; rfl, hdiagnostics, fun hvalid => ?_⟩
  have hnil := List.isEmpty_iff.1 hvalid
  exact List.isEmpty_iff.2 (List.sublist_nil.1 (hnil ▸ hdiagnostics))

/-- The default policy with a tolerance of ten turns, and without the checks on the points. -/
def openEnded : ValidationPolicy :=
  { ValidationPolicy.default with
    periodicityTolerance := .real 70.0
    checkGeometry := .bool false }

theorem validate_loosened_tolerant :
    letI := Machine.ample
    ValidationPolicy.ofSettings [] = .ok .default ∧
      ValidationPolicy.ofSettings
        [("tolerance", .real 70.0), ("check_geometry", .bool false)] = .ok openEnded ∧
      Loosens .default openEnded ∧
      ∃ v w, validate mixedFaults .default = .ok v ∧ validate mixedFaults openEnded = .ok w ∧
        w.diagnostics.Sublist v.diagnostics := by
  let _ := Machine.ample
  have hp : ValidationPolicy.ofSettings [] = .ok .default := rfl
  have hq : ValidationPolicy.ofSettings
      [("tolerance", .real 70.0), ("check_geometry", .bool false)] = .ok openEnded := rfl
  have hloosens : Loosens .default openEnded :=
    { samplePoints_eq := rfl
      period_eq := rfl
      geometrySamples_eq := rfl
      tolerance_le := ⟨_, _, rfl, rfl, by decide⟩
      magnitude_le := ⟨_, _, rfl, rfl, by decide⟩
      degeneracy_le := ⟨_, _, rfl, rfl, by decide⟩
      checkPeriodicity := id
      checkGeometry := fun _ => rfl
      strictGeometry := id }
  obtain ⟨hexists, hall⟩ := validate_loosened hp hq hloosens mixedFaults
  obtain ⟨v, hv⟩ := hexists ⟨10, rfl, rfl⟩
  obtain ⟨w, hw, hsub, -⟩ := hall v hv
  exact ⟨hp, hq, hloosens, v, w, hv, hw, hsub⟩

/-- An equation that is zero at zero, and at minus zero the difference of two infinities; and two
lines. -/
def finiteAboveZero : Triple Value := ⟨.text "1/(1/t+abs(1/t))", .text "t", .text "t"⟩

/-- A policy with a single sample point, which checks nothing else than the values there. -/
def samplingAt (t : Float) : ValidationPolicy :=
  { ValidationPolicy.default with
    samplePoints := .tuple [.real t]
    checkPeriodicity := .bool false
    checkGeometry := .bool false }

/-- **Equal sample points are not enough**: one policy samples at zero, the other at minus zero. -/
theorem not_loosened_of_equals :
    letI := Machine.ample
    ¬ ∀ (settings settings' : Fields) (p q : ValidationPolicy) (sources : Triple Value)
        (v w : Verdict), ValidationPolicy.ofSettings settings = .ok p →
      ValidationPolicy.ofSettings settings' = .ok q →
      q.samplePoints.equals p.samplePoints = true → Allows p q → validate sources p = .ok v →
      validate sources q = .ok w → w.diagnostics.Sublist v.diagnostics := by
  let _ := Machine.ample
  intro h
  have hp : ValidationPolicy.ofSettings [("sample_points", .list [.real 0.0]),
      ("check_periodicity", .bool false), ("check_geometry", .bool false)] =
        .ok (samplingAt 0.0) := rfl
  have hq : ValidationPolicy.ofSettings [("sample_points", .list [.real (-0.0)]),
      ("check_periodicity", .bool false), ("check_geometry", .bool false)] =
        .ok (samplingAt (-0.0)) := rfl
  have hallows : Allows (samplingAt 0.0) (samplingAt (-0.0)) :=
    { period_eq := rfl
      geometrySamples_eq := rfl
      tolerance_le := ⟨_, _, rfl, rfl, by decide⟩
      magnitude_le := ⟨_, _, rfl, rfl, by decide⟩
      degeneracy_le := ⟨_, _, rfl, rfl, by decide⟩
      checkPeriodicity := id
      checkGeometry := id
      strictGeometry := id }
  have hat : (validate finiteAboveZero (samplingAt 0.0)).map Verdict.isValid = .ok true := by
    decide +kernel
  have hbelow : (validate finiteAboveZero (samplingAt (-0.0))).map Verdict.isValid =
      .ok false := by
    decide +kernel
  obtain ⟨v, hv, hvalid⟩ := map_eq_ok_iff.1 hat
  obtain ⟨w, hw, hinvalid⟩ := map_eq_ok_iff.1 hbelow
  have hsub := h _ _ _ _ finiteAboveZero v w hp hq (by decide +kernel) hallows hv hw
  rw [List.isEmpty_iff.1 hvalid, List.sublist_nil] at hsub
  rw [Verdict.isValid, hsub] at hinvalid
  cases hinvalid

end SpaceCurve
