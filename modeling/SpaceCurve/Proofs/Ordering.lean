import SpaceCurve.Proofs.Independence

/-!
# The order of findings

The two lists of a verdict are filled stage by stage, and within a stage from axis to axis, while
the axes that are still looked at become fewer.  This file says in which order the findings stand
and which of them exclude each other.  None of it depends on how the policy came about: a setting
may be of any kind, as long as there is a verdict.

* `Finding.IsFrom` — the check and the axis that a finding names, with no axis for what is about
  the whole curve.  `Precedes` compares two such origins: the earlier stage comes first, and within
  a stage the earlier axis.
* `route` — all origins there are, in the order of a run.  The failures of a run have origins that
  are a part of it (`origin_allFailures_sublist`), and `route` is strictly increasing, so no finding
  is repeated and none is out of place.
* `remarks_of_parse_error`, `remarks_of_parse` — a source that does not parse has one remark, which
  is about its text; a source that parses has none of these.
* `validate_ordered` — the result for verdicts.
-/

set_option autoImplicit false

namespace SpaceCurve

/-! ## Origins -/

/-- The finding names this check and this axis, or no axis. -/
structure Finding.IsFrom (f : Finding) (origin : Check × Option Axis) : Prop where
  check_eq : f.check = .text origin.1.name
  kind_eq : f.kind = origin.1.kind
  axis_eq : f.axis = origin.2.elim .null fun axis => .text axis.name

/-- Where a failure comes from. -/
def Failure.origin (f : Failure) : Check × Option Axis := (f.check, f.axis)

theorem Failure.isFrom_finding (f : Failure) : f.finding.IsFrom f.origin := by
  obtain ⟨check, axis?, text⟩ := f
  cases axis? <;> exact ⟨rfl, rfl, rfl⟩

namespace Validation

/-- One origin comes before another one: its stage is earlier, or the stage is the same and its axis
is earlier. -/
def Precedes (o o' : Check × Option Axis) : Prop :=
  toLex (o.1.stage, o.2.elim 0 Axis.all.idxOf) < toLex (o'.1.stage, o'.2.elim 0 Axis.all.idxOf)

instance : DecidableRel Precedes := fun o o' =>
  inferInstanceAs (Decidable (toLex (o.1.stage, o.2.elim 0 Axis.all.idxOf) <
    toLex (o'.1.stage, o'.2.elim 0 Axis.all.idxOf)))

/-- All origins in the order of a run. -/
def route : List (Check × Option Axis) :=
  places.map (fun place => (place.1, some place.2)) ++ [(.degenerate, none), (.magnitude, none)]

theorem pairwise_route : route.Pairwise Precedes := by
  decide

variable {p : ValidationPolicy} {sources : Triple Value} {joint : List Event}

/-- What is made of the elements of a list, seen from where it comes from, is a part of the list. -/
theorem sublist_map_filterMap {α β γ : Type} {f : α → Option β} {k : β → γ} {g : α → γ}
    (h : ∀ x b, f x = some b → k b = g x) (xs : List α) :
    ((xs.filterMap f).map k).Sublist (xs.map g) := by
  induction xs with
  | nil => exact .slnil
  | cons x xs ih =>
    rw [List.filterMap_cons, List.map_cons]
    cases hf : f x with
    | none => exact ih.cons (g x)
    | some b =>
      rw [List.map_cons, h x b hf]
      exact ih.cons_cons (g x)

/-- What fails at the points of a curve, in order. -/
theorem exists_jointFailures [Machine] {c : Curve} {events : List Event}
    (h : geometryEvents p c = .ok events) :
    ∃ degenerate bounded, Event.failures events = jointFailures degenerate bounded := by
  obtain ⟨_, spread, magnitude, -, -, -, hfailures, -⟩ := exists_of_geometryEvents h
  exact ⟨spread.degenerate, magnitude.passed, hfailures⟩

theorem origin_joint_sublist [Machine] {curve? : Option Curve}
    (h : jointEvents p curve? = .ok joint) :
    ((Event.failures joint).map Failure.origin).Sublist
      [(.degenerate, none), (.magnitude, none)] := by
  cases curve? with
  | none =>
    cases h
    exact List.nil_sublist _
  | some c =>
    obtain ⟨degenerate, bounded, hfailures⟩ := exists_jointFailures h
    rw [hfailures]
    cases degenerate <;> cases bounded <;> decide

/-- **The failures of a run come along the route.** -/
theorem origin_allFailures_sublist [Machine] {curve? : Option Curve}
    (h : jointEvents p curve? = .ok joint) :
    ((allFailures p sources joint).map Failure.origin).Sublist route := by
  have hplaces : ((places.filterMap (failureAt? p sources)).map Failure.origin).Sublist
      (places.map fun place => (place.1, some place.2)) := by
    refine sublist_map_filterMap (fun place f hf => ?_) places
    obtain ⟨text, -, rfl⟩ := Option.map_eq_some_iff.1 hf
    rfl
  rw [allFailures, List.map_append, route]
  exact hplaces.append (origin_joint_sublist h)

/-- Some of the failures of a run, as findings: they have origins, and these are increasing. -/
theorem exists_origins {failures : List Failure}
    (h : (failures.map Failure.origin).Sublist route) (keep : Failure → Bool) :
    List.Forall₂ Finding.IsFrom ((failures.filter keep).map Failure.finding)
        ((failures.filter keep).map Failure.origin) ∧
      ((failures.filter keep).map Failure.origin).Pairwise Precedes := by
  constructor
  · rw [List.forall₂_map_left_iff, List.forall₂_map_right_iff, List.forall₂_same]
    exact fun f _ => f.isFrom_finding
  · exact pairwise_route.sublist ((List.filter_sublist.map Failure.origin).trans h)

/-- Whether a failure is demoted depends on its check alone, so no origin is on both sides. -/
theorem disjoint_origins (p : ValidationPolicy) (failures : List Failure) :
    ((failures.filter fun f => !isDemoted p f).map Failure.origin).Disjoint
      ((failures.filter (isDemoted p)).map Failure.origin) := by
  intro origin hkept hdemoted
  obtain ⟨f, hf, rfl⟩ := List.mem_map.1 hkept
  obtain ⟨g, hg, horigin⟩ := List.mem_map.1 hdemoted
  have hcheck : g.check = f.check := congrArg Prod.fst horigin
  have hf := (List.mem_filter.1 hf).2
  have hg := (List.mem_filter.1 hg).2
  rw [isDemoted, hcheck, ← isDemoted] at hg
  simp [hg] at hf

/-! ## One axis -/

/-- The checks on an axis, one after another. -/
theorem remarks_eq (p : ValidationPolicy) (source : Value) :
    remarks p source = axisChecks.flatMap fun check =>
      ((complaint? p source check).map fun text => (check, text)).toList := by
  rw [remarks, List.filterMap_eq_flatMap_toList]

/-- **A source that does not parse has exactly one remark, about its text.** -/
theorem remarks_of_parse_error {source : Value} {e : SyntaxError}
    (h : Equation.parse source = .error e) :
    ∃ remark, remarks p source = [remark] ∧ remark.1.kind = .grammar := by
  have hvalues : ∀ passes, parsesAndFails passes source = false := by
    intro passes
    rw [parsesAndFails, h]
  rw [remarks_eq]
  simp only [axisChecks, List.flatMap_cons, List.flatMap_nil, complaint?, hvalues,
    grammarComplaint?, h, Bool.and_false]
  cases isPresent source with
  | false => exact ⟨_, rfl, rfl⟩
  | true =>
    cases isBalanced source with
    | false => exact ⟨_, rfl, rfl⟩
    | true => exact ⟨_, rfl, rfl⟩

/-- **A source that parses has no remark about its text.** -/
theorem remarks_of_parse {source : Value} {e : Equation} (h : Equation.parse source = .ok e) :
    ∀ remark ∈ remarks p source, remark.1.kind ≠ .grammar := by
  rintro ⟨check, text⟩ hmem hkind
  have hcomplaint := mem_remarks_iff.1 hmem
  have hpresent := isPresent_of_parse h
  have hbalanced := isBalanced_of_parse h
  cases check
  case empty | parentheses | grammar =>
    simp [complaint?, hpresent, hbalanced, grammarComplaint?, h] at hcomplaint
  all_goals cases hkind

section

variable [Machine]

/-- The findings about an axis, of either list, when there is one remark on its source. -/
theorem about_of_remarks_eq {curve? : Option Curve} (h : jointEvents p curve? = .ok joint)
    (notes : Fields) {axis : Axis} {remark : Check × String}
    (hremarks : remarks p (sources.get axis) = [remark]) :
    about axis ((verdictOn p (allFailures p sources joint) notes).diagnostics ++
      (verdictOn p (allFailures p sources joint) notes).warnings) = [remarkOn axis remark] := by
  obtain ⟨hdiagnostics, hwarnings⟩ := about_verdictOn sources h notes axis
  rw [about, List.filter_append, ← about, ← about, hdiagnostics, hwarnings, hremarks]
  cases hdemoted : isDemotedRemark p remark <;> simp [hdemoted]

/-- The findings about an axis are remarks on its source. -/
theorem exists_remark_of_mem_about {curve? : Option Curve} (h : jointEvents p curve? = .ok joint)
    (notes : Fields) {axis : Axis} {f : Finding}
    (hf : f ∈ about axis ((verdictOn p (allFailures p sources joint) notes).diagnostics ++
      (verdictOn p (allFailures p sources joint) notes).warnings)) :
    ∃ remark ∈ remarks p (sources.get axis), f = remarkOn axis remark := by
  obtain ⟨hdiagnostics, hwarnings⟩ := about_verdictOn sources h notes axis
  rw [about, List.filter_append, ← about, ← about, hdiagnostics, hwarnings] at hf
  rcases List.mem_append.1 hf with hf | hf
  all_goals
    obtain ⟨remark, hremark, rfl⟩ := List.mem_map.1 hf
    exact ⟨remark, List.mem_of_mem_filter hremark, rfl⟩

/-- An axis has no finding about its text just if its equation parses. -/
theorem all_about_eq {curve? : Option Curve} (h : jointEvents p curve? = .ok joint)
    (notes : Fields) (axis : Axis) :
    ((about axis ((verdictOn p (allFailures p sources joint) notes).diagnostics ++
        (verdictOn p (allFailures p sources joint) notes).warnings)).all
      fun f => f.kind != .grammar) = !isRejected sources axis := by
  cases hparse : Equation.parse (sources.get axis) with
  | error e =>
    obtain ⟨only, honly, hkind⟩ := remarks_of_parse_error (p := p) hparse
    rw [about_of_remarks_eq h notes honly, isRejected_iff.2 ⟨e, hparse⟩]
    simp [remarkOn, hkind]
  | ok e =>
    have haccepted : isRejected sources axis = false := by
      simp [isRejected, hparse, Except.isOk, Except.toBool]
    rw [haccepted, Bool.not_false, List.all_eq_true]
    intro f hf
    obtain ⟨remark, hremark, rfl⟩ := exists_remark_of_mem_about h notes hf
    exact bne_iff_ne.2 (remarks_of_parse hparse remark hremark)

end

/-- The axes whose equations parse, in order. -/
theorem map_fst_parsed (sources : Triple Value) :
    (parsed sources).map (·.1) = Axis.all.filter fun axis => !isRejected sources axis := by
  rw [parsed_eq, List.map_filterMap, ← List.filterMap_eq_filter]
  refine List.filterMap_congr fun axis _ => ?_
  cases hparse : Equation.parse (sources.get axis) <;>
    simp [parsedOn?, isRejected, hparse, Except.toOption, Except.isOk, Except.toBool, Option.guard]

/-! ## The whole curve -/

theorem check_mem_axisChecks {f : Failure} (h : f ∈ places.filterMap (failureAt? p sources)) :
    f.check ∈ axisChecks := by
  obtain ⟨place, hplace, hf⟩ := List.mem_filterMap.1 h
  obtain ⟨text, -, rfl⟩ := Option.map_eq_some_iff.1 hf
  exact (List.pair_mem_product.1 hplace).1

/-- Where something fails at the points of a curve, they were checked. -/
theorem exists_dueCurve [Machine] (hjoint : jointEvents p (dueCurve? p sources) = .ok joint)
    {f : Failure} (hf : f ∈ Event.failures joint) : ∃ c, dueCurve? p sources = some c := by
  cases hdue : dueCurve? p sources with
  | some c => exact ⟨c, rfl⟩
  | none =>
    rw [hdue] at hjoint
    cases hjoint
    cases hf

/-- **Where the points of the curve are checked, no axis has failed before**, but for its
periodicity. -/
theorem check_of_dueCurve {c : Curve} (hdue : dueCurve? p sources = some c) {f : Failure}
    (hf : f ∈ places.filterMap (failureAt? p sources)) : f.check = .periodicity := by
  rw [dueCurve?, geometryCurve?] at hdue
  split at hdue
  case isFalse => cases hdue
  next hasked =>
  obtain ⟨place, -, hplace⟩ := List.mem_filterMap.1 hf
  obtain ⟨text, htext, rfl⟩ := Option.map_eq_some_iff.1 hplace
  have hparse := parse_get (curveOf?_parsed.1 hdue) place.2
  have hkind := remarks_of_parse hparse _ (mem_remarks_iff.2 htext)
  have hbroken : brokenAxes p sources = [] := by
    simpa using (Bool.and_eq_true_iff.1 hasked).2
  have hfinite : parsesAndFails (isFiniteAtSamples p) (sources.get place.2) = false := by
    simpa using List.filter_eq_nil_iff.1 hbroken place.2 (mem_all place.2)
  obtain ⟨check, axis⟩ := place
  cases check
  case empty | parentheses | grammar => exact absurd rfl hkind
  case sampleValues => simp [complaint?, hfinite] at htext
  case periodicity => rfl
  case degenerate | magnitude => cases htext

/-- What is found about the whole curve is found at its points. -/
theorem mem_joint_of_check {f : Failure} (hf : f ∈ allFailures p sources joint)
    (hcheck : f.check = .degenerate ∨ f.check = .magnitude) : f ∈ Event.failures joint := by
  refine (List.mem_append.1 hf).resolve_left fun hplace => ?_
  have hmem := check_mem_axisChecks hplace
  rcases hcheck with hcheck | hcheck
  all_goals
    rw [hcheck] at hmem
    exact absurd hmem (by decide)

/-- Where the points of the curve are checked, only the last three checks can fail. -/
theorem check_of_mem_allFailures [Machine] {c : Curve} (hdue : dueCurve? p sources = some c)
    (hjoint : jointEvents p (dueCurve? p sources) = .ok joint) {f : Failure}
    (hf : f ∈ allFailures p sources joint) :
    f.check = .periodicity ∨ f.check = .degenerate ∨ f.check = .magnitude := by
  rcases List.mem_append.1 hf with hplace | hlater
  · exact .inl (check_of_dueCurve hdue hplace)
  · rw [hdue] at hjoint
    obtain rfl | rfl := eq_joint_of_geometryEvents hjoint f hlater
    · exact .inr (.inl rfl)
    · exact .inr (.inr rfl)

end Validation

open Validation

/-- **Findings come in order, and never twice.**  Take any three sources and any policy, whatever
its settings are made of, for which there is a verdict.

In each of its two lists the findings come from strictly increasing stages and axes, and no check on
an axis has a finding in both.  A finding about the text of an axis is the only finding about that
axis.  Where there is a finding about the whole curve, its points were checked, and no finding is
about a text or about sample values.  The axes noted as parsed are, in order, those without a
finding about their texts. -/
theorem validate_ordered [Machine] {sources : Triple Value} {p : ValidationPolicy} {v : Verdict}
    (h : validate sources p = .ok v) :
    (∃ diagnosed warned : List (Check × Option Axis),
      List.Forall₂ Finding.IsFrom v.diagnostics diagnosed ∧ diagnosed.Pairwise Precedes ∧
      List.Forall₂ Finding.IsFrom v.warnings warned ∧ warned.Pairwise Precedes ∧
      diagnosed.Disjoint warned) ∧
    (∀ axis, ∀ f ∈ about axis (v.diagnostics ++ v.warnings), f.kind = .grammar →
      about axis (v.diagnostics ++ v.warnings) = [f]) ∧
    (∀ f ∈ v.diagnostics ++ v.warnings,
      f.check = .text Check.degenerate.name ∨ f.check = .text Check.magnitude.name →
      v.metadata.get? "geometry_checked" = some (.bool true) ∧
        ∀ g ∈ v.diagnostics ++ v.warnings,
          g.kind ≠ .grammar ∧ g.check ≠ .text Check.sampleValues.name) ∧
    v.metadata.get? "parsed_axes" = some (.list ((Axis.all.filter fun axis =>
      (about axis (v.diagnostics ++ v.warnings)).all fun f => f.kind != .grammar).map
        fun axis => .text axis.name)) := by
  obtain ⟨joint, hjoint, rfl⟩ := exists_joint_of_validate h
  have hsublist : ((allFailures p sources joint).map Failure.origin).Sublist route :=
    origin_allFailures_sublist hjoint
  obtain ⟨hfrom, hincreasing⟩ := exists_origins hsublist fun f => !isDemoted p f
  obtain ⟨hfrom', hincreasing'⟩ := exists_origins hsublist (isDemoted p)
  refine ⟨⟨_, _, hfrom, hincreasing, hfrom', hincreasing', disjoint_origins p _⟩,
    fun axis f hf hkind => ?_, fun f hf hcheck => ?_, ?_⟩
  · obtain ⟨remark, hremark, rfl⟩ := exists_remark_of_mem_about hjoint _ hf
    cases hparse : Equation.parse (sources.get axis) with
    | ok e => exact absurd hkind (remarks_of_parse hparse remark hremark)
    | error e =>
      obtain ⟨only, honly, -⟩ := remarks_of_parse_error (p := p) hparse
      rw [honly, List.mem_singleton] at hremark
      rw [about_of_remarks_eq hjoint _ honly, hremark]
  · have hperm := perm_verdictOn p (allFailures p sources joint) (runNotes p sources)
    obtain ⟨failure, hfailure, rfl⟩ := List.mem_map.1 (hperm.mem_iff.1 hf)
    obtain ⟨c, hdue⟩ := exists_dueCurve hjoint (mem_joint_of_check hfailure
      (hcheck.imp (Check.name_inj <| Value.text.inj ·) (Check.name_inj <| Value.text.inj ·)))
    refine ⟨by rw [← Option.isSome_some (a := c), ← hdue]; rfl, fun g hg => ?_⟩
    obtain ⟨other, hother, rfl⟩ := List.mem_map.1 (hperm.mem_iff.1 hg)
    show other.check.kind ≠ _ ∧ Value.text other.check.name ≠ _
    rcases check_of_mem_allFailures hdue hjoint hother with hcheck | hcheck | hcheck
    all_goals
      rw [hcheck]
      exact ⟨nofun, fun hname => absurd (Check.name_inj (Value.text.inj hname)) (by decide)⟩
  · simp only [all_about_eq hjoint, ← map_fst_parsed]
    rfl

/-- A policy that no settings make: its sample points are a list of integers, and the sizes of the
coordinates have bounds of their own. -/
def handmade : ValidationPolicy :=
  { ValidationPolicy.default with
    samplePoints := .list [.int 1]
    maxMagnitude := .list [.int 1, .int 2, .int 3]
    strictGeometry := .int 0 }

theorem validate_ordered_handmade :
    letI := Machine.ample
    ∃ v, validate ⟨.text "t", .text "t/t", .text "3"⟩ handmade = .ok v ∧
      v.warnings.map (fun f => f.check.shown) = ["periodicity", "magnitude"] ∧
      (∃ warned, List.Forall₂ Finding.IsFrom v.warnings warned ∧ warned.Pairwise Precedes) ∧
      v.metadata.get? "geometry_checked" = some (.bool true) := by
  let _ := Machine.ample
  have hshown : (validate ⟨.text "t", .text "t/t", .text "3"⟩ handmade).map
      (fun v => (v.warnings.map fun f => f.check.shown,
        v.warnings.any fun f => f.check.equals (.text Check.magnitude.name))) =
      .ok (["periodicity", "magnitude"], true) := by
    decide +kernel
  obtain ⟨v, hv, hpair⟩ := map_eq_ok_iff.1 hshown
  obtain ⟨hnames, hany⟩ := Prod.mk.inj hpair
  obtain ⟨f, hf, hmagnitude⟩ := List.any_eq_true.1 hany
  obtain ⟨⟨_, warned, -, -, hfrom, hincreasing, -⟩, -, hjoint, -⟩ := validate_ordered hv
  exact ⟨v, hv, hnames, ⟨warned, hfrom, hincreasing⟩,
    (hjoint f (List.mem_append_right _ hf) (.inr (equals_text_iff.1 hmagnitude))).1⟩

end SpaceCurve
