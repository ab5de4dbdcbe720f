import SpaceCurve.Proofs.Columns
import SpaceCurve.Proofs.Stages

/-!
# The axes do not interfere

A run looks at three sources in turn and keeps what it finds in common lists.  All the same, what
it says about an axis depends on the source of that axis alone, and not on which axis it is.

* `remarks p source` — the checks that a source fails and the texts about it.  `remarkOn axis` makes
  a finding of such a remark, and the axis enters into it in two places: its name, and the letter
  in front of the message.
* `about axis`, `joint` — the findings of a list that name the axis, and those that name none.
* `about_verdictOn` — **the findings about an axis are the remarks on its source.**
* `Covers` — every source of the second triple stands somewhere in the first.  When it goes both
  ways, the points of both curves are degenerate or beyond the bounds alike, since both checks ask
  the same of every column.
-/

set_option autoImplicit false

namespace SpaceCurve

/-! ## Findings about an axis -/

/-- The finding that a check with a text about a source makes on an axis. -/
def remarkOn (axis : Axis) (remark : Check × String) : Finding :=
  { message := .text (axis.capital ++ " " ++ remark.2)
    axis := .text axis.name
    kind := remark.1.kind
    check := .text remark.1.name }

/-- The findings that name an axis. -/
def about (axis : Axis) (findings : List Finding) : List Finding :=
  findings.filter fun f => f.axis.equals (.text axis.name)

/-- The findings that name no axis. -/
def joint (findings : List Finding) : List Finding :=
  findings.filter fun f => f.axis.equals .null

theorem axis_equals_text (f : Failure) (axis : Axis) :
    f.finding.axis.equals (.text axis.name) = (f.axis == some axis) := by
  obtain ⟨check, axis?, text⟩ := f
  cases axis? with
  | none => rfl
  | some other => cases other <;> cases axis <;> rfl

theorem axis_equals_null (f : Failure) : f.finding.axis.equals .null = f.axis.isNone := by
  obtain ⟨check, axis?, text⟩ := f
  cases axis? <;> rfl

theorem Check.name_inj {c d : Check} (h : c.name = d.name) : c = d := by
  cases c <;> cases d <;> first | rfl | exact absurd h (by decide)

theorem equals_text_iff {value : Value} {s : String} :
    value.equals (.text s) = true ↔ value = .text s := by
  cases value <;> simp [Value.equals, Value.agrees, Value.number]

theorem mem_about_iff {axis : Axis} {findings : List Finding} {f : Finding} :
    f ∈ about axis findings ↔ f ∈ findings ∧ f.axis = .text axis.name := by
  rw [about, List.mem_filter, equals_text_iff]

theorem about_map_finding (axis : Axis) (failures : List Failure) :
    about axis (failures.map Failure.finding) =
      (failures.filter fun f => f.axis == some axis).map Failure.finding := by
  rw [about, List.filter_map]
  exact congrArg (List.map Failure.finding)
    (List.filter_congr fun f _ => axis_equals_text f axis)

theorem joint_map_finding (failures : List Failure) :
    joint (failures.map Failure.finding) =
      (failures.filter fun f => f.axis.isNone).map Failure.finding := by
  rw [joint, List.filter_map]
  exact congrArg (List.map Failure.finding) (List.filter_congr fun f _ => axis_equals_null f)

namespace Validation

variable {p : ValidationPolicy} {sources first second : Triple Value}

/-- The checks that a source fails, with the texts about it. -/
def remarks (p : ValidationPolicy) (source : Value) : List (Check × String) :=
  axisChecks.filterMap fun check => (complaint? p source check).map fun text => (check, text)

/-- The remarks on a source are what the checks on one axis have to say about it. -/
theorem mem_remarks_iff {source : Value} {check : Check} {text : String} :
    (check, text) ∈ remarks p source ↔ complaint? p source check = some text := by
  simp only [remarks, List.mem_filterMap, Option.map_eq_some_iff, Prod.mk.injEq]
  constructor
  · rintro ⟨_, -, _, htext, rfl, rfl⟩
    exact htext
  · intro htext
    refine ⟨check, ?_, text, htext, rfl, rfl⟩
    cases check
    case degenerate | magnitude => cases htext
    all_goals decide

/-- The failure that a remark makes on an axis. -/
def failureOn (axis : Axis) (remark : Check × String) : Failure := ⟨remark.1, some axis, remark.2⟩

/-- Of the places for one check, one is on the axis. -/
theorem filter_axis_stage (p : ValidationPolicy) (sources : Triple Value) (check : Check)
    (axis : Axis) :
    (Axis.all.filterMap fun a => failureAt? p sources (check, a)).filter
        (fun f => f.axis == some axis) =
      ((complaint? p (sources.get axis) check).map fun text =>
        failureOn axis (check, text)).toList := by
  simp only [Axis.all, List.filterMap_cons, List.filterMap_nil, failureAt?]
  cases axis <;> cases hx : complaint? p (sources.get .x) check <;>
    cases hy : complaint? p (sources.get .y) check <;>
    cases hz : complaint? p (sources.get .z) check <;> rfl

/-- **The failures on an axis, at all places, are the remarks on its source.** -/
theorem filter_axis_places (p : ValidationPolicy) (sources : Triple Value) (axis : Axis) :
    (places.filterMap (failureAt? p sources)).filter (fun f => f.axis == some axis) =
      (remarks p (sources.get axis)).map (failureOn axis) := by
  rw [filterMap_places, remarks, List.map_filterMap]
  induction axisChecks with
  | nil => rfl
  | cons check rest ih =>
    rw [List.flatMap_cons, List.filter_append, ih, filter_axis_stage, List.filterMap_cons]
    cases complaint? p (sources.get axis) check <;> rfl

/-- No failure at a place is about the whole curve. -/
theorem filter_isNone_places (p : ValidationPolicy) (sources : Triple Value) :
    (places.filterMap (failureAt? p sources)).filter (fun f => f.axis.isNone) = [] := by
  rw [List.filter_eq_nil_iff]
  intro f hf
  obtain ⟨place, -, hplace⟩ := List.mem_filterMap.1 hf
  obtain ⟨text, -, rfl⟩ := Option.map_eq_some_iff.1 hplace
  simp

/-- What is found at the points of a curve is about none of its axes. -/
theorem axis_of_jointEvents [Machine] {curve? : Option Curve} {events : List Event}
    (h : jointEvents p curve? = .ok events) : ∀ f ∈ Event.failures events, f.axis = none := by
  intro f hf
  cases curve? with
  | none =>
    cases h
    simp [Event.failures] at hf
  | some c =>
    obtain rfl | rfl := eq_joint_of_geometryEvents h f hf
    · rfl
    · rfl

/-- The failures of a run on an axis are the remarks on its source, whatever happens at the
points. -/
theorem filter_axis_allFailures [Machine] {curve? : Option Curve} {events : List Event}
    (h : jointEvents p curve? = .ok events) (axis : Axis) :
    (allFailures p sources events).filter (fun f => f.axis == some axis) =
      (remarks p (sources.get axis)).map (failureOn axis) := by
  have hnone : (Event.failures events).filter (fun f => f.axis == some axis) = [] := by
    rw [List.filter_eq_nil_iff]
    intro f hf
    simp [axis_of_jointEvents h f hf]
  rw [allFailures, List.filter_append, hnone, List.append_nil]
  exact filter_axis_places p sources axis

/-- The failures of a run about the whole curve are those at its points. -/
theorem filter_isNone_allFailures [Machine] {curve? : Option Curve} {events : List Event}
    (h : jointEvents p curve? = .ok events) :
    (allFailures p sources events).filter (fun f => f.axis.isNone) = Event.failures events := by
  have hall : (Event.failures events).filter (fun f => f.axis.isNone) = Event.failures events := by
    rw [List.filter_eq_self]
    intro f hf
    simp [axis_of_jointEvents h f hf]
  rw [allFailures, List.filter_append, filter_isNone_places, List.nil_append, hall]

/-- Whether a remark counts as a warning under a policy. -/
def isDemotedRemark (p : ValidationPolicy) (remark : Check × String) : Bool :=
  remark.1.kind == .geometry && !p.strictGeometry.truthy

/-- **The findings about an axis are the remarks on its source**, each in the list to which it
belongs. -/
theorem about_verdictOn [Machine] (sources : Triple Value) {curve? : Option Curve}
    {events : List Event} (h : jointEvents p curve? = .ok events) (notes : Fields) (axis : Axis) :
    about axis (verdictOn p (allFailures p sources events) notes).diagnostics =
        ((remarks p (sources.get axis)).filter fun r => !isDemotedRemark p r).map
          (remarkOn axis) ∧
      about axis (verdictOn p (allFailures p sources events) notes).warnings =
        ((remarks p (sources.get axis)).filter (isDemotedRemark p)).map (remarkOn axis) := by
  have hlist : ∀ (keep : Failure → Bool) (keepRemark : Check × String → Bool),
      (∀ r, keep (failureOn axis r) = keepRemark r) →
      about axis (((allFailures p sources events).filter keep).map Failure.finding) =
        ((remarks p (sources.get axis)).filter keepRemark).map (remarkOn axis) := by
    intro keep keepRemark hkeep
    rw [about_map_finding, List.filter_comm, filter_axis_allFailures h, List.filter_map,
      List.map_map]
    exact congrArg _ (List.filter_congr fun r _ => hkeep r)
  exact ⟨hlist _ _ fun _ => rfl, hlist _ _ fun _ => rfl⟩

/-- The findings about the whole curve are those at its points. -/
theorem joint_verdictOn [Machine] (sources : Triple Value) {curve? : Option Curve}
    {events : List Event} (h : jointEvents p curve? = .ok events) (notes : Fields) :
    joint (verdictOn p (allFailures p sources events) notes).diagnostics =
        ((Event.failures events).filter fun f => !isDemoted p f).map Failure.finding ∧
      joint (verdictOn p (allFailures p sources events) notes).warnings =
        ((Event.failures events).filter (isDemoted p)).map Failure.finding := by
  have hlist : ∀ keep : Failure → Bool,
      joint (((allFailures p sources events).filter keep).map Failure.finding) =
        ((Event.failures events).filter keep).map Failure.finding := by
    intro keep
    rw [joint_map_finding, List.filter_comm, filter_isNone_allFailures h]
  exact ⟨hlist _, hlist _⟩

/-! ## The same sources on other axes -/

/-- Every source of the second triple stands on some axis of the first. -/
def Covers (first second : Triple Value) : Prop :=
  ∀ axis, ∃ other, second.get axis = first.get other

theorem mem_toList_iff {t : Triple Value} {source : Value} :
    source ∈ t.toList ↔ ∃ axis, t.get axis = source := by
  simp only [Triple.toList, List.mem_cons, List.not_mem_nil, or_false]
  constructor
  · rintro (rfl | rfl | rfl)
    · exact ⟨.x, rfl⟩
    · exact ⟨.y, rfl⟩
    · exact ⟨.z, rfl⟩
  · rintro ⟨axis, rfl⟩
    cases axis <;> simp [Triple.get]

theorem covers_of_subset (h : ∀ source ∈ second.toList, source ∈ first.toList) :
    Covers first second := by
  intro axis
  obtain ⟨other, hother⟩ := mem_toList_iff.1 (h _ (mem_toList_iff.2 ⟨axis, rfl⟩))
  exact ⟨other, hother.symm⟩

/-- Where the points of one curve are due to be checked, so are those of a curve with no other
equations. -/
theorem JointDue.of_covers (h : Covers first second) {c : Curve} (hdue : JointDue first p c) :
    ∃ d, JointDue second p d ∧ ∀ axis, ∃ other, d.get axis = c.get other := by
  obtain ⟨hasked, hparse, hfinite⟩ := hdue
  cases hsecond : Curve.parse second with
  | error e =>
    obtain ⟨axis, fault, hfault⟩ := exists_parse_error_iff.1 ⟨e, hsecond⟩
    obtain ⟨other, hother⟩ := h axis
    rw [hother, parse_get hparse other] at hfault
    cases hfault
  | ok d =>
    refine ⟨d, ⟨hasked, hsecond, fun axis hbroken => ?_⟩, fun axis => ?_⟩
    · obtain ⟨e, points, t, y, he, hpoints, ht, hy, hinfinite⟩ := hbroken
      obtain ⟨other, hother⟩ := h axis
      exact hfinite other ⟨e, points, t, y, hother ▸ he, hpoints, ht, hy, hinfinite⟩
    · obtain ⟨other, hother⟩ := h axis
      have hget := parse_get hsecond axis
      rw [hother, parse_get hparse other] at hget
      exact ⟨other, (Except.ok.inj hget).symm⟩

/-- Points that have no other columns fail the same checks. -/
theorem forall_values_of_covers {c d : Curve} (h : ∀ axis, ∃ other, d.get axis = c.get other)
    {ts : Grid Float} {P : List Float → Prop} (hc : ∀ axis, P ((c.get axis).values ts)) :
    ∀ axis, P ((d.get axis).values ts) := by
  intro axis
  obtain ⟨other, hother⟩ := h axis
  rw [hother]
  exact hc other

/-- **Two curves with the same equations, in whatever order, fail the same checks on their
points.** -/
theorem failures_geometryEvents_eq [Machine] (fig : p.Figures) {c d : Curve} (hc : c.Parsed)
    (hcd : ∀ axis, ∃ other, d.get axis = c.get other)
    (hdc : ∀ axis, ∃ other, c.get axis = d.get other) :
    (geometryEvents p c).map Event.failures = (geometryEvents p d).map Event.failures := by
  have hd : d.Parsed := by
    intro axis
    obtain ⟨other, hother⟩ := hcd axis
    rw [hother]
    exact hc other
  cases hroom : Machine.checkRoom fig.samples.toNat with
  | error cause => rw [geometryEvents_of_noRoom fig hroom, geometryEvents_of_noRoom fig hroom]
  | ok u =>
    obtain ⟨ec, dc, bc, hec, hfc, hdc', hbc⟩ := exists_geometryEvents_columns fig hc hroom
    obtain ⟨ed, dd, bd, hed, hfd, hdd, hbd⟩ := exists_geometryEvents_columns fig hd hroom
    have hdegenerate : dc = dd := by
      rw [Bool.eq_iff_iff, hdc', hdd]
      exact ⟨forall_values_of_covers hcd, forall_values_of_covers hdc⟩
    have hbounded : bc = bd := by
      rw [Bool.eq_iff_iff, hbc, hbd]
      exact ⟨forall_values_of_covers hcd, forall_values_of_covers hdc⟩
    rw [hec, hed]
    simp only [Except.map, hfc, hfd, hdegenerate, hbounded]

/-- Two triples with the same sources come to the joint stage together, and fail the same checks
there. -/
theorem jointEvents_eq [Machine] (fig : p.Figures) (h : Covers first second)
    (h' : Covers second first) :
    (dueCurve? p first).isSome = (dueCurve? p second).isSome ∧
      (jointEvents p (dueCurve? p first)).map Event.failures =
        (jointEvents p (dueCurve? p second)).map Event.failures := by
  cases hfirst : dueCurve? p first with
  | some c =>
    have hdue := (dueCurve?_eq_some_iff fig).1 hfirst
    obtain ⟨d, hdue', hcd⟩ := hdue.of_covers h
    obtain ⟨c', hdue'', hdc⟩ := hdue'.of_covers h'
    obtain rfl := Except.ok.inj (hdue.2.1.symm.trans hdue''.2.1)
    rw [(dueCurve?_eq_some_iff fig).2 hdue']
    exact ⟨rfl, failures_geometryEvents_eq fig (fun axis => ⟨_, parse_get hdue.2.1 axis⟩) hcd hdc⟩
  | none =>
    cases hsecond : dueCurve? p second with
    | none => exact ⟨rfl, rfl⟩
    | some d =>
      obtain ⟨c, hdue, -⟩ := ((dueCurve?_eq_some_iff fig).1 hsecond).of_covers h'
      rw [(dueCurve?_eq_some_iff fig).2 hdue] at hfirst
      cases hfirst

end Validation

open Validation in
/-- **Axes do not interfere and are treated alike.**  Under a policy read from settings, which has a
verdict on any three sources if there is room for the points, take the verdicts on two triples of
sources.

A source that stands on some axis of the first and on some axis of the second has the same findings
in both: in each of the two lists the same checks, in the same order, with texts that differ in the
axis alone.  If the second triple is the first one in another order, the findings about the whole
curve are the same in each list, and its points were checked in both runs or in neither. -/
theorem validate_independent [Machine] {settings : Fields} {p : ValidationPolicy}
    (hp : ValidationPolicy.ofSettings settings = .ok p) :
    (p.HasRoom → ∀ sources, ∃ v, validate sources p = .ok v) ∧
    ∀ (first second : Triple Value) (v w : Verdict), validate first p = .ok v →
      validate second p = .ok w →
      (∀ a b, first.get a = second.get b → ∃ diagnosed warned : List (Check × String),
        about a v.diagnostics = diagnosed.map (remarkOn a) ∧
        about b w.diagnostics = diagnosed.map (remarkOn b) ∧
        about a v.warnings = warned.map (remarkOn a) ∧
        about b w.warnings = warned.map (remarkOn b)) ∧
      (second.toList.Perm first.toList →
        joint v.diagnostics = joint w.diagnostics ∧ joint v.warnings = joint w.warnings ∧
          v.metadata.get? "geometry_checked" = w.metadata.get? "geometry_checked") := by
  obtain ⟨fig⟩ := ValidationPolicy.nonempty_figures hp
  refine ⟨fun hroom => exists_validate_of_hasRoom fig hroom, fun first second v w hv hw => ?_⟩
  rw [validate_eq fig] at hv hw
  obtain ⟨events, hevents, rfl⟩ := map_eq_ok_iff.1 hv
  obtain ⟨events', hevents', rfl⟩ := map_eq_ok_iff.1 hw
  refine ⟨fun a b hab => ?_, fun hperm => ?_⟩
  · obtain ⟨ha, ha'⟩ := about_verdictOn first hevents (runNotes p first) a
    obtain ⟨hb, hb'⟩ := about_verdictOn second hevents' (runNotes p second) b
    rw [← hab] at hb hb'
    exact ⟨_, _, ha, hb, ha', hb'⟩
  · have hcovers := covers_of_subset fun _ => hperm.mem_iff.1
    have hcovers' := covers_of_subset fun _ => hperm.mem_iff.2
    obtain ⟨hchecked, hfailures⟩ := jointEvents_eq fig hcovers hcovers'
    rw [hevents, hevents', Except.map, Except.map, Except.ok.injEq] at hfailures
    obtain ⟨hd, hw⟩ := joint_verdictOn first hevents (runNotes p first)
    obtain ⟨hd', hw'⟩ := joint_verdictOn second hevents' (runNotes p second)
    refine ⟨?_, ?_, ?_⟩
    · rw [hd, hd', hfailures]
    · rw [hw, hw', hfailures]
    · exact congrArg (fun checked => some (Value.bool checked)) hchecked

/-- A curve with a pole on its second axis and a text that is cut off on its third. -/
def poleAndCut : Triple Value := ⟨.text "t", .text "1/t", .text "sin("⟩

/-- The same sources, each one axis earlier. -/
def poleAndCutTurned : Triple Value := ⟨.text "1/t", .text "sin(", .text "t"⟩

theorem validate_independent_turned :
    letI := Machine.ample
    ValidationPolicy.ofSettings [] = .ok .default ∧
      poleAndCutTurned.toList.Perm poleAndCut.toList ∧
      ∃ v w, validate poleAndCut .default = .ok v ∧
        validate poleAndCutTurned .default = .ok w ∧
        (about .y v.diagnostics).map Finding.kind = [.evaluation, .geometry] ∧
        (∃ diagnosed : List (Check × String),
          about .y v.diagnostics = diagnosed.map (remarkOn .y) ∧
          about .x w.diagnostics = diagnosed.map (remarkOn .x)) ∧
        joint v.diagnostics = joint w.diagnostics := by
  let _ := Machine.ample
  have hp : ValidationPolicy.ofSettings [] = .ok .default := rfl
  have hperm : poleAndCutTurned.toList.Perm poleAndCut.toList :=
    @List.perm_append_comm Value [.text "1/t", .text "sin("] [.text "t"]
  have hkinds : (validate poleAndCut .default).map
      (fun v => (about .y v.diagnostics).map Finding.kind) = .ok [.evaluation, .geometry] := by
    decide +kernel
  obtain ⟨v, hv, hvkinds⟩ := map_eq_ok_iff.1 hkinds
  obtain ⟨hexists, hboth⟩ := validate_independent hp
  obtain ⟨w, hw⟩ := hexists ⟨10, rfl, rfl⟩ poleAndCutTurned
  obtain ⟨haxes, hjoint⟩ := hboth _ _ v w hv hw
  obtain ⟨diagnosed, -, hy, hx, -, -⟩ := haxes .y .x rfl
  exact ⟨hp, hperm, v, w, hv, hw, hvkinds, ⟨diagnosed, hy, hx⟩, (hjoint hperm).1⟩

end SpaceCurve
