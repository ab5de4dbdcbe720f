import SpaceCurve.Proofs.FloatOrder
import SpaceCurve.Proofs.Verdicts

/-!
# Whether a valid curve can be drawn

A valid verdict of a strict policy that wants the points of the curve checked should mean that there
is something to draw: the points have finite coordinates within the bound of the policy, and they
are not all one point.  This is `Renderable`.

It is not quite so, and for the same reason as with closing: a comparison with `nan` is false.  A
coordinate that is `nan` is not beyond the bound, and its distance to the first point is not below
the tolerance, so that a single one makes a curve that is one point otherwise a valid one
(`not_renderable_of_isValid`).  The sample points, at which values must be finite, are others than
the points of the curve.  An infinite bound lets infinite coordinates pass as well.

What does hold is `renderable_of_isValid`: coordinates that are numbers are within the bound, some
coordinate is away from that of the first point as far as there is a distance, and without `nan` and
under a finite bound the curve is renderable.
-/

set_option autoImplicit false

namespace SpaceCurve

open Validation

/-- The points at which the geometry of the curve is checked. -/
def Sampled [Machine] (sources : Triple Value) (p : ValidationPolicy)
    (points : List (List Float)) : Prop :=
  ∃ c grid, Curve.parse sources = .ok c ∧ c.sample (samplingPolicy p) = .ok grid ∧
    grid.rows = points

/-- The coordinates are finite and within the bound of the policy, and one of them is as far from
that of the first point as the tolerance says. -/
def Renderable (p : ValidationPolicy) (points : List (List Float)) : Prop :=
  ∃ bound tolerance, p.maxMagnitude = .real bound ∧ p.degeneracyTolerance = .real tolerance ∧
    (∀ point ∈ points, ∀ x ∈ point, x.isFinite = true ∧ x.abs ≤ bound) ∧
    ∃ first, points.head? = some first ∧ ∃ point ∈ points, ∃ (k : Nat) (a b : Float),
      point[k]? = some a ∧ first[k]? = some b ∧ tolerance ≤ (a - b).abs

/-! ## The points of a valid curve -/

theorem Spread.mem_offsets {first point : List Float} {d : Float} (h : d ∈ offsets first point) :
    ∃ (k : Nat) (a b : Float), point[k]? = some a ∧ first[k]? = some b ∧ d = (a - b).abs := by
  obtain ⟨k, hk⟩ := List.mem_iff_getElem?.1 h
  rw [offsets, List.getElem?_zipWith] at hk
  split at hk
  · next a b ha hb => exact ⟨k, a, b, ha, hb, (Option.some.inj hk).symm⟩
  · cases hk

variable {p : ValidationPolicy} {sources : Triple Value} {v : Verdict}

/-- The points of a valid curve are as many as the policy says.  No coordinate is beyond the bound,
and not all of them are closer to the first point than the tolerance. -/
theorem exists_points_of_isValid [Machine] (fig : p.Figures) (hgeometry : p.checkGeometry.truthy = true)
    (hstrict : p.strictGeometry.truthy = true) (hv : validate sources p = .ok v)
    (hvalid : v.isValid = true) :
    ∃ points first, Sampled sources p points ∧ points.length = fig.samples.toNat ∧
      (∀ point ∈ points, point.length = 3) ∧
      (∀ point ∈ points, ∀ x ∈ point, ¬ fig.magnitude < x.abs) ∧
      points.head? = some first ∧
      ∃ point ∈ points, ∃ d ∈ Spread.offsets first point, ¬ d < fig.degeneracy := by
  obtain ⟨c, events, hc, hevents, hnone⟩ :=
    exists_events_of_isValid fig hgeometry hstrict hv hvalid
  obtain ⟨grid, spread, magnitude, hgrid, hspread, hmagnitude, hapart, hbounded⟩ :=
    of_failures_eq_nil hevents hnone
  have hroom : Machine.checkRoom fig.samples.toNat = .ok () := by
    cases hcheck : Machine.checkRoom fig.samples.toNat with
    | ok u => rfl
    | error cause => cases hevents.symm.trans (geometryEvents_of_noRoom fig hcheck)
  obtain ⟨points, hpoints, hfull, hshape⟩ :=
    exists_sample fig (fun axis => ⟨_, parse_get hc axis⟩) hroom
  obtain rfl := Except.ok.inj (hgrid.symm.trans hpoints)
  have hpos := fig.samples_pos
  obtain ⟨s, first, others, hs, hrows, hdegenerate⟩ :=
    Spread.exists_of hfull hshape (by omega) fig.degeneracy
  rw [fig.degeneracy_eq, hs] at hspread
  obtain rfl := Except.ok.inj hspread
  obtain ⟨m, hm, hpassed⟩ := Magnitude.exists_of hfull hshape fig.magnitude
  rw [fig.magnitude_eq, hm] at hmagnitude
  obtain rfl := Except.ok.inj hmagnitude
  refine ⟨grid.rows, first, ⟨c, grid, hc, hgrid, rfl⟩, Grid.length_rows hshape, ?_, ?_, ?_, ?_⟩
  · intro point hpoint
    exact hfull.length_of_mem_rows hshape hpoint
  · intro point hpoint x hx
    refine hpassed.1 hbounded x ?_
    rw [← hfull.flatten_rows hshape]
    exact List.mem_flatten.2 ⟨point, hpoint, hx⟩
  · rw [hrows]
    rfl
  · have hnot := mt hdegenerate.2 (Bool.eq_false_iff.1 hapart)
    push Not at hnot
    exact hnot

/-- **A valid curve can be drawn as far as its points are numbers.**  Let a policy be read from
settings, want the points of the curve checked, and be strict.  Then a valid curve has as many
points as the policy says, with three coordinates each.  Each coordinate is `nan`, or it is within
the bound, and finite if the bound is.  Some coordinate is at least the tolerance away from that of
the first point, or there is no distance because one of them is `nan` or they are the same infinity.
Where the bound is finite and no coordinate is `nan`, the curve is renderable. -/
theorem renderable_of_isValid [Machine] {settings : Fields}
    (hp : ValidationPolicy.ofSettings settings = .ok p)
    (hgeometry : p.checkGeometry.truthy = true) (hstrict : p.strictGeometry.truthy = true)
    (hv : validate sources p = .ok v) (hvalid : v.isValid = true) :
    ∃ points first n bound tolerance, Sampled sources p points ∧
      p.geometrySamples = .int n ∧ p.maxMagnitude = .real bound ∧
      p.degeneracyTolerance = .real tolerance ∧
      (points.length : Int) = n ∧ (∀ point ∈ points, point.length = 3) ∧
      (∀ point ∈ points, ∀ x ∈ point,
        x.isNaN = true ∨ x.abs ≤ bound ∧ (bound.isFinite = true → x.isFinite = true)) ∧
      points.head? = some first ∧
      (∃ point ∈ points, ∃ (k : Nat) (a b : Float), point[k]? = some a ∧ first[k]? = some b ∧
        ((a.isNaN = true ∨ b.isNaN = true ∨ a.isInf = true ∧ (a == b) = true) ∨
          tolerance ≤ (a - b).abs)) ∧
      (bound.isFinite = true → (∀ point ∈ points, ∀ x ∈ point, x.isNaN = false) →
        Renderable p points) := by
  obtain ⟨fig⟩ := ValidationPolicy.nonempty_figures hp
  obtain ⟨points, first, hsampled, hlength, hwidth, hbounded, hfirst, hpoint⟩ :=
    exists_points_of_isValid fig hgeometry hstrict hv hvalid
  obtain ⟨point, hpoint, d, hd, hapart⟩ := hpoint
  have hwithin : ∀ point ∈ points, ∀ x ∈ point, x.isNaN = true ∨ x.abs ≤ fig.magnitude ∧
      (fig.magnitude.isFinite = true → x.isFinite = true) := by
    intro point hpoint x hx
    by_cases hnan : x.isNaN = true
    · exact .inl hnan
    · have hle := Binary64.le_of_not_lt
        ((Binary64.isNaN_abs_eq x).trans (Bool.eq_false_iff.2 hnan))
        (ValidationPolicy.isNaN_of_pos fig.magnitude_pos) (hbounded point hpoint x hx)
      exact .inr ⟨hle, fun hbound => Binary64.isFinite_of_abs_le hbound hle⟩
  obtain ⟨k, a, b, ha, hb, rfl⟩ := Spread.mem_offsets hd
  have haway : (a.isNaN = true ∨ b.isNaN = true ∨ a.isInf = true ∧ (a == b) = true) ∨
      fig.degeneracy ≤ (a - b).abs := by
    rw [← Binary64.isNaN_abs_sub_iff]
    by_cases hnan : (a - b).abs.isNaN = true
    · exact .inl hnan
    · exact .inr (Binary64.le_of_not_lt (ValidationPolicy.isNaN_of_pos fig.degeneracy_pos)
        (Bool.eq_false_iff.2 hnan) hapart)
  refine ⟨points, first, fig.samples, fig.magnitude, fig.degeneracy, hsampled, fig.samples_eq,
    fig.magnitude_eq, fig.degeneracy_eq, ?_, hwidth, hwithin, hfirst,
    ⟨point, hpoint, k, a, b, ha, hb, haway⟩, fun hbound hnumbers => ?_⟩
  · have hpos := fig.samples_pos
    rw [hlength, Int.toNat_of_nonneg (by omega)]
  · have hfinite : ∀ point ∈ points, ∀ x ∈ point,
        x.isFinite = true ∧ x.abs ≤ fig.magnitude := by
      intro point hpoint x hx
      rcases hwithin point hpoint x hx with hnan | ⟨hle, hfinite⟩
      · rw [hnumbers point hpoint x hx] at hnan
        cases hnan
      · exact ⟨hfinite hbound, hle⟩
    have hafin := (hfinite point hpoint a (List.mem_of_getElem? ha)).1
    have hbfin := (hfinite first (List.mem_of_head? hfirst) b (List.mem_of_getElem? hb)).1
    refine ⟨fig.magnitude, fig.degeneracy, fig.magnitude_eq, fig.degeneracy_eq, hfinite, first,
      hfirst, point, hpoint, k, a, b, ha, hb, ?_⟩
    rcases haway with (hnan | hnan | ⟨hinf, -⟩) | hle
    · rw [Binary64.isNaN_of_isFinite hafin] at hnan
      cases hnan
    · rw [Binary64.isNaN_of_isFinite hbfin] at hnan
      cases hnan
    · rw [Binary64.isInf_of_isFinite hafin] at hinf
      cases hinf
    · exact hle

/-- An arch: one equation goes up and comes down again, the others stay where they are. -/
def arch : Triple Value := ⟨.text "t*(2*pi-t)", .text "0", .text "1"⟩

theorem renderable_of_isValid_arch :
    letI := Machine.ample
    ValidationPolicy.ofSettings [] = .ok .default ∧
      ∃ v points, validate arch .default = .ok v ∧ v.isValid = true ∧
        Sampled arch .default points ∧ Renderable .default points := by
  let _ := Machine.ample
  have hp : ValidationPolicy.ofSettings [] = .ok .default := rfl
  have hrun : (validate arch .default).map Verdict.isValid = .ok true := by
    decide +kernel
  have hnumbers : (Curve.parse arch).map (fun c => (c.sample (samplingPolicy .default)).map
      fun grid => grid.rows.all fun point => point.all fun x => !x.isNaN) = .ok (.ok true) := by
    decide +kernel
  obtain ⟨v, hv, hvalid⟩ := map_eq_ok_iff.1 hrun
  obtain ⟨points, _, _, bound, _, hsampled, -, hbound, -, -, -, -, -, -, hrenderable⟩ :=
    renderable_of_isValid hp rfl rfl hv hvalid
  obtain ⟨c, grid, hc, hgrid, rfl⟩ := hsampled
  rw [hc, Except.map, hgrid, Except.map, Except.ok.injEq, Except.ok.injEq] at hnumbers
  obtain rfl := Value.real.inj hbound
  refine ⟨hp, v, grid.rows, hv, hvalid, ⟨c, grid, hc, hgrid, rfl⟩, hrenderable (by decide) ?_⟩
  simpa using hnumbers

/-! ## A valid curve that is no curve -/

/-- Points of which one is not finite are not renderable. -/
theorem not_renderable_of_infinite [Machine]
    (h : (Curve.parse sources).map (fun c => (c.sample (samplingPolicy p)).map
      fun grid => grid.rows.all fun point => point.all Float.isFinite) = .ok (.ok false)) :
    ¬ ∃ points, Sampled sources p points ∧ Renderable p points := by
  rintro ⟨points, ⟨c, grid, hc, hgrid, rfl⟩, _, _, -, -, hfinite, -⟩
  rw [hc, Except.map, hgrid, Except.map, Except.ok.injEq, Except.ok.injEq] at h
  refine Bool.eq_false_iff.1 h (List.all_eq_true.2 fun point hpoint => ?_)
  exact List.all_eq_true.2 fun x hx => (hfinite point hpoint x hx).1

/-- Three equations that are one everywhere, but for a hole between two sample points. -/
def punctured : Triple Value := ⟨.text "(t-pi/5)/(t-pi/5)", .text "1", .text "1"⟩

/-- **A valid curve need not be renderable**, under the default policy. -/
theorem not_renderable_of_isValid :
    letI := Machine.ample
    ¬ ∀ (settings : Fields) (p : ValidationPolicy) (sources : Triple Value) (v : Verdict),
      ValidationPolicy.ofSettings settings = .ok p → p.checkGeometry.truthy = true →
      p.strictGeometry.truthy = true → validate sources p = .ok v → v.isValid = true →
      ∃ points, Sampled sources p points ∧ Renderable p points := by
  let _ := Machine.ample
  intro h
  have hrun : (validate punctured .default).map Verdict.isValid = .ok true := by
    decide +kernel
  -- the second point is in the hole
  have hhole : (Curve.parse punctured).map (fun c => (c.sample (samplingPolicy .default)).map
      fun grid => grid.rows.all fun point => point.all Float.isFinite) = .ok (.ok false) := by
    decide +kernel
  obtain ⟨v, hv, hvalid⟩ := map_eq_ok_iff.1 hrun
  exact not_renderable_of_infinite hhole (h [] .default punctured v rfl rfl rfl hv hvalid)

/-- A pole between two sample points. -/
def poleBetween : Triple Value := ⟨.text "1/(t-pi/5)", .text "1", .text "1"⟩

/-- A policy that bounds nothing and does not ask for periodicity. -/
def boundless : ValidationPolicy :=
  { ValidationPolicy.default with
    checkPeriodicity := .bool false
    maxMagnitude := .real (1.0 / 0.0) }

/-- Nor need its points be finite when the bound is infinite. -/
theorem not_renderable_pole :
    letI := Machine.ample
    ValidationPolicy.ofSettings [("check_periodicity", .bool false),
        ("max_magnitude", .text "inf")] = .ok boundless ∧
      (∃ v, validate poleBetween boundless = .ok v ∧ v.isValid = true) ∧
      ¬ ∃ points, Sampled poleBetween boundless points ∧ Renderable boundless points := by
  let _ := Machine.ample
  have hrun : (validate poleBetween boundless).map Verdict.isValid = .ok true := by
    decide +kernel
  have hpole : (Curve.parse poleBetween).map (fun c => (c.sample (samplingPolicy boundless)).map
      fun grid => grid.rows.all fun point => point.all Float.isFinite) = .ok (.ok false) := by
    decide +kernel
  exact ⟨rfl, map_eq_ok_iff.1 hrun, not_renderable_of_infinite hpole⟩

end SpaceCurve
