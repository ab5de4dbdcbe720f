import SpaceCurve.Proofs.Findings

/-!
# Every input has a verdict

Validation takes whatever it is given: sources of any kind, and settings that may be of any kind
too until `ValidationPolicy.ofSettings` has read them.  Each step of it may fail by itself, since an
evaluation needs a program and a real parameter, sampling a positive number of segments, a
comparison two numbers, and degeneracy a first point.  Under a policy read from settings none of
them does.  What is left is room for the points of the curve, and `exists_verdict` says that this is
all: with room for them there is a verdict, and without room the only fault is the want of it.

How strict the policy is has no part in this (`Figures.withStrictness`), so it may be made lenient
after it has been read.

A verdict of a strict policy that is valid has no findings.  What this says about the sources is
said here once, in `of_isValid` for each axis and in `exists_events_of_isValid` for the curve.
-/

set_option autoImplicit false

namespace SpaceCurve

open Validation

variable {p q : ValidationPolicy} {sources : Triple Value} {c : Curve}

/-- The numbers that a policy holds are there however strict it is. -/
def ValidationPolicy.Figures.withStrictness (fig : p.Figures) (strict : Value) :
    ValidationPolicy.Figures { p with strictGeometry := strict } :=
  { fig with }

section

variable [Machine]

/-- Where there is no room for the points of a curve, this is what its check fails with. -/
theorem geometryEvents_of_noRoom (fig : p.Figures) {cause : ValueFault}
    (hroom : Machine.checkRoom fig.samples.toNat = .error cause) :
    geometryEvents p c = .error (.value cause) := by
  rw [geometryEvents, sample_eq fig, hroom]
  rfl

theorem exists_checkGeometry (fig : p.Figures) (hc : c.Parsed)
    (hroom : Machine.checkRoom fig.samples.toNat = .ok ()) :
    ∃ v, checkGeometry c p = .ok v := by
  obtain ⟨events, hevents⟩ := exists_geometryEvents fig hc hroom
  exact ⟨_, by rw [checkGeometry, hevents]; rfl⟩

/-- **Validation returns a verdict on any three sources**, if there is room for the points of a
curve. -/
theorem exists_validate (fig : p.Figures)
    (hroom : Machine.checkRoom fig.samples.toNat = .ok ()) (sources : Triple Value) :
    ∃ v, validate sources p = .ok v := by
  obtain ⟨curve?, hcurve, -, hok⟩ := exists_account fig sources
  have hjoint : ∃ events, jointEvents p curve? = .ok events := by
    cases curve? with
    | none => exact ⟨[], rfl⟩
    | some c =>
      have hdue : JointDue sources p c := (hcurve c).1 rfl
      exact exists_geometryEvents fig (fun axis => ⟨_, parse_get hdue.2.1 axis⟩) hroom
  obtain ⟨events, hevents⟩ := hjoint
  obtain ⟨v, hv, -⟩ := hok events hevents
  exact ⟨v, hv⟩

/-- If there is no room, validation fails with nothing else. -/
theorem fault_of_noRoom (fig : p.Figures) {cause : ValueFault}
    (hroom : Machine.checkRoom fig.samples.toNat = .error cause) {fault : Fault}
    (h : validate sources p = .error fault) : fault = .value cause := by
  obtain ⟨curve?, -, herror, hok⟩ := exists_account fig sources
  cases hjoint : jointEvents p curve? with
  | ok events =>
    obtain ⟨v, hv, -⟩ := hok events hjoint
    cases h.symm.trans hv
  | error fault' =>
    obtain rfl : fault = fault' := Except.error.inj (h.symm.trans (herror fault' hjoint))
    cases curve? with
    | none => cases hjoint
    | some c =>
      have hgeometry : geometryEvents p c = .error fault := hjoint
      rw [geometryEvents_of_noRoom fig hroom] at hgeometry
      exact (Except.error.inj hgeometry).symm

/-- **Validation fails on nothing that a user writes.**  Let a policy be read from settings, and
perhaps be made lenient afterwards.  It asks for a whole number of points, and if there is room for
so many, every three sources have a verdict and so have the points of every curve that has been
parsed.  If there is no room, the want of it is the only fault there can be. -/
theorem exists_verdict {settings : Fields} (hp : ValidationPolicy.ofSettings settings = .ok p)
    (hq : q = p ∨ q = { p with strictGeometry := .bool false }) :
    ∃ n : Nat, q.geometrySamples = .int n ∧
      (Machine.checkRoom n = .ok () →
        (∀ sources, ∃ v, validate sources q = .ok v) ∧
          ∀ c : Curve, c.Parsed → ∃ v, checkGeometry c q = .ok v) ∧
      ∀ cause, Machine.checkRoom n = .error cause →
        (∀ sources fault, validate sources q = .error fault → fault = .value cause) ∧
          ∀ (c : Curve) (fault : Fault), checkGeometry c q = .error fault →
            fault = .value cause := by
  obtain ⟨figp⟩ := ValidationPolicy.nonempty_figures hp
  have hfigures : Nonempty q.Figures := by
    rcases hq with rfl | rfl
    · exact ⟨figp⟩
    · exact ⟨figp.withStrictness _⟩
  obtain ⟨fig⟩ := hfigures
  refine ⟨fig.samples.toNat, fig.geometrySamples_eq, fun hroom => ?_, fun cause hroom => ?_⟩
  · exact ⟨exists_validate fig hroom, fun c hc => exists_checkGeometry fig hc hroom⟩
  · refine ⟨fun sources fault => fault_of_noRoom fig hroom, fun c fault h => ?_⟩
    have hgeometry := map_eq_error_iff.1 h
    rw [geometryEvents_of_noRoom fig hroom] at hgeometry
    exact (Except.error.inj hgeometry).symm

end

/-- Under a policy written by hand and made lenient: nothing, a record and a text that is cut off;
and a parabola, all of whose faults are warnings, those of its points among them. -/
theorem exists_verdict_lenient :
    letI := Machine.ample
    ValidationPolicy.ofSettings handwritten = .ok handwrittenPolicy ∧
      (∃ v, validate ⟨.null, .record [("t", .int 1)], .text "sin("⟩
        { handwrittenPolicy with strictGeometry := .bool false } = .ok v) ∧
      ∃ v, validate parabola { handwrittenPolicy with strictGeometry := .bool false } = .ok v ∧
        v.warnings.map (fun f => f.check.shown) = ["periodicity", "periodicity", "magnitude"] := by
  let _ := Machine.ample
  have hp : ValidationPolicy.ofSettings handwritten = .ok handwrittenPolicy := rfl
  obtain ⟨n, hn, hroom, -⟩ := exists_verdict hp (.inr rfl)
  obtain rfl : 4 = n := Int.ofNat.inj (Value.int.inj hn)
  obtain ⟨hverdicts, -⟩ := hroom rfl
  have hchecks : (validate parabola { handwrittenPolicy with strictGeometry := .bool false }).map
      (fun v => v.warnings.map fun f => f.check.shown) =
        .ok ["periodicity", "periodicity", "magnitude"] := by
    decide +kernel
  obtain ⟨v, hv⟩ := hverdicts parabola
  rw [hv] at hchecks
  exact ⟨hp, hverdicts _, v, hv, Except.ok.inj hchecks⟩

/-! ## Verdicts without findings -/

variable [Machine]

/-- A strict policy gives no warnings. -/
theorem warnings_eq_nil {v : Verdict} (hstrict : p.strictGeometry.truthy = true)
    (hv : validate sources p = .ok v) : v.warnings = [] := by
  obtain ⟨r, -, rfl⟩ := map_eq_ok_iff.1 hv
  have hnone : ∀ f : Failure, isDemoted p f = false := by
    intro f
    simp [isDemoted, hstrict]
  simp [Run.verdict, verdictOn, hnone]

/-- A valid verdict of a strict policy has no findings at all. -/
theorem findings_eq_nil {v : Verdict} (hstrict : p.strictGeometry.truthy = true)
    (hv : validate sources p = .ok v) (hvalid : v.isValid = true) :
    v.diagnostics ++ v.warnings = [] := by
  rw [List.isEmpty_iff.1 hvalid, warnings_eq_nil hstrict hv, List.append_nil]

/-- A valid verdict of a strict policy has nothing against any axis. -/
theorem of_isValid {v : Verdict} (fig : p.Figures) (hstrict : p.strictGeometry.truthy = true)
    (hv : validate sources p = .ok v) (hvalid : v.isValid = true) (axis : Axis) :
    ¬ Rejected sources axis ∧ ¬ Broken sources p axis ∧
      ¬ (p.checkPeriodicity.truthy = true ∧ Validation.Open sources p axis) := by
  obtain ⟨joint, -, haccount⟩ := exists_account_of_validate fig hv
  rw [findings_eq_nil hstrict hv hvalid] at haccount
  obtain ⟨account⟩ := haccount
  obtain ⟨hfirst, -⟩ := List.append_eq_nil_iff.1 (List.nil_perm.1 account.perm)
  obtain ⟨hsecond, hunclosed⟩ := List.append_eq_nil_iff.1 hfirst
  obtain ⟨hsyntactic, hbroken⟩ := List.append_eq_nil_iff.1 hsecond
  refine ⟨fun h => ?_, fun h => ?_, fun h => ?_⟩
  · obtain ⟨f, hf, -⟩ := account.exists_syntactic h
    rw [hsyntactic] at hf
    cases hf
  · have hmem := (account.broken_lists.mem_iff axis).2 h
    rw [List.map_eq_nil_iff.1 hbroken] at hmem
    cases hmem
  · have hmem := (account.unclosed_lists.mem_iff axis).2 h
    rw [List.map_eq_nil_iff.1 hunclosed] at hmem
    cases hmem

/-- A valid verdict of a strict policy that wants the points checked has found nothing wrong with
them. -/
theorem exists_events_of_isValid {v : Verdict} (fig : p.Figures)
    (hgeometry : p.checkGeometry.truthy = true) (hstrict : p.strictGeometry.truthy = true)
    (hv : validate sources p = .ok v) (hvalid : v.isValid = true) :
    ∃ c events, Curve.parse sources = .ok c ∧ geometryEvents p c = .ok events ∧
      Event.failures events = [] := by
  have hclear := of_isValid fig hstrict hv hvalid
  cases hparse : Curve.parse sources with
  | error e =>
    obtain ⟨axis, hrejected⟩ := exists_parse_error_iff.1 ⟨e, hparse⟩
    exact absurd hrejected (hclear axis).1
  | ok c =>
    have hdue : JointDue sources p c := ⟨hgeometry, hparse, fun axis => (hclear axis).2.1⟩
    obtain ⟨curve?, hcurve, herror, hok⟩ := exists_account fig sources
    obtain rfl := (hcurve c).2 hdue
    cases hevents : geometryEvents p c with
    | error fault => cases hv.symm.trans (herror fault hevents)
    | ok events =>
      obtain ⟨w, hw, haccount⟩ := hok events hevents
      obtain rfl := Except.ok.inj (hv.symm.trans hw)
      rw [findings_eq_nil hstrict hv hvalid] at haccount
      obtain ⟨account⟩ := haccount
      obtain ⟨-, hjoint⟩ := List.append_eq_nil_iff.1 (List.nil_perm.1 account.perm)
      exact ⟨c, events, rfl, hevents, List.map_eq_nil_iff.1 hjoint⟩

end SpaceCurve
