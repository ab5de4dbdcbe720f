import SpaceCurve.Proofs.Grids
import SpaceCurve.Proofs.ValueChecks

/-!
# The checks on the points of a curve have an outcome

Under a policy read from settings, a curve whose equations parse is sampled at as many points as
the policy says, and both checks on the points can be made.  The only thing that can be wanting is
room for so many points, `Machine.checkRoom`; this is `exists_geometryEvents`.

What the two checks compare is said by `Spread.exists_of` and `Magnitude.exists_of`, and what comes
of it by `exists_of_geometryEvents`: the failures are those of the two checks and the warnings those
about the period and the distances.  So a check which has found nothing says something about the
points (`of_failures_eq_nil`), and what is found is of one kind (`kind_of_geometryEvents`).
-/

set_option autoImplicit false

namespace SpaceCurve

/-! ## What the checks find -/

/-- The distances to the first point are as many as there are coordinates. -/
theorem Spread.full_distances {points : Grid Float} {n m : Nat} (hfull : points.Full)
    (hshape : points.shape = [n, m]) {first : List Float} (hfirst : first ∈ points.rows) :
    (distances points first).Full := by
  have hwidth : ∀ row ∈ points.rows, (offsets first row).length = m := by
    intro row hrow
    rw [offsets, List.length_zipWith, hfull.length_of_mem_rows hshape hrow,
      hfull.length_of_mem_rows hshape hfirst, Nat.min_self]
  rw [Grid.Full, distances, Grid.length_flatMap_of_forall hwidth, Grid.length_rows hshape]
  simp [hshape, Grid.volume]

/-- **Points are degenerate when all distances to the first one are below the tolerance.** -/
theorem Spread.exists_of {points : Grid Float} {n m : Nat} (hfull : points.Full)
    (hshape : points.shape = [n, m]) (hn : 0 < n) (tolerance : Float) :
    ∃ s first others, Spread.of points (.real tolerance) = .ok s ∧
      points.rows = first :: others ∧ (s.degenerate = true ↔
        ∀ row ∈ points.rows, ∀ x ∈ offsets first row, x < tolerance) := by
  have hlen := Grid.length_rows hshape
  rw [Spread.of]
  split
  · next hnil =>
    rw [hnil] at hlen
    exact absurd hlen (Nat.ne_of_lt hn)
  · next first others hrows =>
    have hfirst : first ∈ points.rows := by simp [hrows]
    have hdistances := full_distances hfull hshape hfirst
    have hclose := Operand.relate_single Value.Number.lt hdistances tolerance
    have hcloseness : closeness (distances points first) (.real tolerance) = .ok _ := hclose
    simp only [hcloseness]
    refine ⟨_, first, others, rfl, hrows, ?_⟩
    simp [Grid.entries_map, distances, hrows, Value.Number.lt]

/-- **Points are within the bounds when no coordinate is larger than the bound.** -/
theorem Magnitude.exists_of {points : Grid Float} {n m : Nat} (hfull : points.Full)
    (hshape : points.shape = [n, m]) (bound : Float) :
    ∃ s, Magnitude.of points (.real bound) = .ok s ∧
      (s.passed = true ↔ ∀ x ∈ points.entries, ¬ bound < x.abs) := by
  have hlarge := Operand.relate_single (fun size limit => limit.lt size) (hfull.map Float.abs) bound
  have hexcess : excess points (.real bound) = .ok _ := hlarge
  refine ⟨_, by rw [Magnitude.of, hexcess]; rfl, ?_⟩
  have hmarks := (hfull.map Float.abs).map fun y => Value.Number.lt (.real bound) (.real y)
  refine beq_iff_eq.trans ((Grid.count_anyOnSecond_eq_zero_iff hmarks hshape).trans ?_)
  simp [Grid.entries_map, Value.Number.lt]

/-! ## Sampling -/

/-- The equations of the curve have been parsed. -/
def Curve.Parsed (c : Curve) : Prop := ∀ axis, ∃ source, Equation.parse source = .ok (c.get axis)

theorem Sampling.full_valuesOf (n : Nat) (endpoint : Bool) {lengths : Grid Float}
    (h : lengths.Full) : (valuesOf n endpoint lengths).Full := by
  rw [Grid.Full, valuesOf, Grid.length_flatMap_of_forall (m := Grid.volume lengths.shape),
    List.length_range, Grid.volume]
  intro i _
  split
  · exact h
  · rw [List.length_map]
    exact h

/-- Three grids with one axis make a table with three columns. -/
theorem Curve.full_stack {x y z : Grid Float} {n : Nat} (hx : x.Full) (hy : y.Full) (hz : z.Full)
    (hxn : x.shape = [n]) (hyn : y.shape = [n]) (hzn : z.shape = [n]) :
    (stack x y z).Full ∧ (stack x y z).shape = [n, 3] := by
  have hshape : (stack x y z).shape = [n, 3] := by simp [stack, hxn]
  refine ⟨?_, hshape⟩
  have hlen : (x.rows.zip (y.rows.zip z.rows)).length = n := by
    simp [Grid.length_rows hxn, Grid.length_rows hyn, Grid.length_rows hzn]
  rw [Grid.Full, hshape, stack, Grid.length_flatMap_of_forall (m := 3), hlen,
    Grid.volume_table]
  rintro ⟨a, b, c⟩ hmem
  obtain ⟨ha, hbc⟩ := List.of_mem_zip hmem
  obtain ⟨hb, hc⟩ := List.of_mem_zip hbc
  rw [hx.rows_line hxn] at ha
  rw [hy.rows_line hyn] at hb
  rw [hz.rows_line hzn] at hc
  obtain ⟨_, -, rfl⟩ := List.mem_map.1 ha
  obtain ⟨_, -, rfl⟩ := List.mem_map.1 hb
  obtain ⟨_, -, rfl⟩ := List.mem_map.1 hc
  rfl

/-- Each equation of a curve has as many values as there are parameters. -/
theorem Curve.Parsed.exists_values {c : Curve} (hc : c.Parsed) {ts : Grid Float} {n : Nat}
    (hfull : ts.Full) (hts : ts.shape = [n]) (axis : Axis) :
    ∃ g, (c.get axis).evaluateGrid ts = .ok g ∧ g.Full ∧ g.shape = [n] := by
  obtain ⟨_, hparse⟩ := hc axis
  obtain ⟨g, hg, hshape, hlen⟩ := exists_evaluateGrid_of_parse hparse ts
  exact ⟨g, hg, by rw [Grid.Full, hlen, hfull, hshape], hshape.trans hts⟩

/-- There are as many points as parameter values, with three coordinates each. -/
theorem Curve.exists_pointsOn {c : Curve} (hc : c.Parsed) {ts : Grid Float} {n : Nat}
    (hfull : ts.Full) (hts : ts.shape = [n]) :
    ∃ points, c.pointsOn ts = .ok points ∧ points.Full ∧ points.shape = [n, 3] := by
  obtain ⟨x, hx, hxfull, hxn⟩ := hc.exists_values hfull hts .x
  obtain ⟨y, hy, hyfull, hyn⟩ := hc.exists_values hfull hts .y
  obtain ⟨z, hz, hzfull, hzn⟩ := hc.exists_values hfull hts .z
  refine ⟨stack x y z, ?_, full_stack hxfull hyfull hzfull hxn hyn hzn⟩
  simp only [Triple.get] at hx hy hz
  simp only [pointsOn, hx, hy, hz, Except.bind, Except.map]

/-! ## Sampling -/

variable [Machine]

/-- The parameter values of a whole number of segments over a single period, if there is room. -/
theorem Sampling.parameters_eq (n : Nat) (period : Float) (endpoint : Value) :
    parameters (.int n) (.real period) endpoint =
      (Machine.checkRoom n).map fun _ => valuesOf n endpoint.truthy (.single period) := by
  have hcount : count (.int n) = .ok n := by
    rw [count, if_neg (by omega)]
    rfl
  simp only [parameters, plan, hcount, bind, Except.bind]
  cases Machine.checkRoom n with
  | error cause => rfl
  | ok _ => rfl

/-- With at least one segment, sampling comes down to the points at the parameter values. -/
theorem Curve.sample_eq {p : SamplingPolicy} {n : Nat} {period : Float} (hn : 0 < n)
    (hsegments : p.segments = .int n) (hperiod : p.period = .real period) (c : Curve) :
    c.sample p = ((Machine.checkRoom n).mapError .value).bind fun _ =>
      (c.pointsOn (Sampling.valuesOf n p.endpoint.truthy (.single period))).mapError
        .evaluation := by
  have hbelow : p.segments.isBelow (.whole 1) = .ok false := by
    have hlt : ¬ (n : Int) < 1 := by omega
    simp [hsegments, Value.isBelow, Value.number, Value.Number.lt, Except.map, hlt]
  simp only [sample, hbelow]
  rw [hsegments, hperiod, Sampling.parameters_eq]
  cases Machine.checkRoom n with
  | error cause => rfl
  | ok _ => rfl

namespace Validation

variable {p : ValidationPolicy} {c : Curve}

/-- The policy asks for enough segments, so that sampling comes down to its parameter values. -/
theorem sample_eq (fig : p.Figures) :
    c.sample (samplingPolicy p) =
      ((Machine.checkRoom fig.samples.toNat).mapError .value).bind fun _ =>
        (c.pointsOn (Sampling.valuesOf fig.samples.toNat false (.single fig.period))).mapError
          .evaluation := by
  have hpos := fig.samples_pos
  exact Curve.sample_eq (by omega) fig.geometrySamples_eq fig.period_eq c

/-- A curve is sampled at as many points as the policy says, if there is room for them. -/
theorem exists_sample (fig : p.Figures) (hc : c.Parsed)
    (hroom : Machine.checkRoom fig.samples.toNat = .ok ()) :
    ∃ points, c.sample (samplingPolicy p) = .ok points ∧ points.Full ∧
      points.shape = [fig.samples.toNat, 3] := by
  obtain ⟨points, hpoints, htable⟩ := Curve.exists_pointsOn hc
    (Sampling.full_valuesOf fig.samples.toNat false (Grid.full_single fig.period)) rfl
  refine ⟨points, ?_, htable⟩
  rw [sample_eq fig, hroom]
  simp only [Except.mapError, Except.bind, hpoints]

/-! ## The joint stage -/

/-- The failures at the points of a curve. -/
def jointFailures (degenerate bounded : Bool) : List Failure :=
  (if degenerate then [.joint .degenerate] else []) ++
    if bounded then [] else [.joint .magnitude]

/-- The warnings at the points of a curve. -/
def jointWarnings (endless overflows : Bool) : List FloatWarning :=
  (if endless then [.invalid] else []) ++ if overflows then [.overflow] else []

section

variable {points : Grid Float} {spread : Spread} {magnitude : Magnitude} {events : List Event}

/-- **What happens at the points of a curve**: the failures are those of the two checks, and there
are warnings of an infinite period and of distances that are too large. -/
theorem exists_geometryEvents_eq (hpoints : c.sample (samplingPolicy p) = .ok points)
    (hspread : Spread.of points p.degeneracyTolerance = .ok spread)
    (hmagnitude : Magnitude.of points p.maxMagnitude = .ok magnitude) :
    ∃ events, geometryEvents p c = .ok events ∧
      Event.failures events = jointFailures spread.degenerate magnitude.passed ∧
      Event.warnings events = jointWarnings (Sampling.isEndless p.period)
        (Spread.overflows points) := by
  simp only [geometryEvents, hpoints, hspread, hmagnitude, bind, Except.bind, Except.mapError]
  refine ⟨_, rfl, ?_, ?_⟩
  · simp only [Event.failures, List.filterMap_append, jointFailures]
    cases spread.degenerate <;> cases magnitude.passed <;> cases Sampling.isEndless p.period <;>
      cases Sampling.countNonFinite points == 0 <;> cases Spread.overflows points <;> rfl
  · simp only [Event.warnings, List.filterMap_append, jointWarnings]
    cases spread.degenerate <;> cases magnitude.passed <;> cases Sampling.isEndless p.period <;>
      cases Sampling.countNonFinite points == 0 <;> cases Spread.overflows points <;> rfl

theorem exists_of_geometryEvents (h : geometryEvents p c = .ok events) :
    ∃ points spread magnitude, c.sample (samplingPolicy p) = .ok points ∧
      Spread.of points p.degeneracyTolerance = .ok spread ∧
      Magnitude.of points p.maxMagnitude = .ok magnitude ∧
      Event.failures events = jointFailures spread.degenerate magnitude.passed ∧
      Event.warnings events = jointWarnings (Sampling.isEndless p.period)
        (Spread.overflows points) := by
  obtain ⟨points, hpoints, hrest⟩ := bind_eq_ok_iff.1 h
  obtain ⟨spread, hspread, hrest⟩ := bind_eq_ok_iff.1 hrest
  obtain ⟨magnitude, hmagnitude, -⟩ := bind_eq_ok_iff.1 hrest
  have hmagnitude := mapError_eq_ok_iff.1 hmagnitude
  obtain ⟨events', hevents, hfailures, hwarnings⟩ :=
    exists_geometryEvents_eq hpoints hspread hmagnitude
  obtain rfl := Except.ok.inj (h.symm.trans hevents)
  exact ⟨points, spread, magnitude, hpoints, hspread, hmagnitude, hfailures, hwarnings⟩

end

/-- **The points of a curve are checked whenever there is room for them.** -/
theorem exists_geometryEvents (fig : p.Figures) (hc : c.Parsed)
    (hroom : Machine.checkRoom fig.samples.toNat = .ok ()) :
    ∃ events, geometryEvents p c = .ok events := by
  obtain ⟨points, hpoints, hfull, hshape⟩ := exists_sample fig hc hroom
  have hpos := fig.samples_pos
  obtain ⟨spread, _, _, hspread, -⟩ :=
    Spread.exists_of hfull hshape (by omega) fig.degeneracy
  obtain ⟨magnitude, hmagnitude, -⟩ := Magnitude.exists_of hfull hshape fig.magnitude
  rw [← fig.degeneracy_eq] at hspread
  rw [← fig.magnitude_eq] at hmagnitude
  obtain ⟨events, hevents, -⟩ := exists_geometryEvents_eq hpoints hspread hmagnitude
  exact ⟨events, hevents⟩

/-- Where the checks on the points find nothing, both of them have passed. -/
theorem of_failures_eq_nil {events : List Event} (h : geometryEvents p c = .ok events)
    (hnone : Event.failures events = []) :
    ∃ points spread magnitude, c.sample (samplingPolicy p) = .ok points ∧
      Spread.of points p.degeneracyTolerance = .ok spread ∧
      Magnitude.of points p.maxMagnitude = .ok magnitude ∧
      spread.degenerate = false ∧ magnitude.passed = true := by
  obtain ⟨points, spread, magnitude, hpoints, hspread, hmagnitude, hfailures, -⟩ :=
    exists_of_geometryEvents h
  have hjoint : jointFailures spread.degenerate magnitude.passed = [] := hfailures.symm.trans hnone
  refine ⟨points, spread, magnitude, hpoints, hspread, hmagnitude, ?_⟩
  revert hjoint
  cases spread.degenerate <;> cases magnitude.passed <;> simp [jointFailures]

/-- What is found at the points of a curve comes from one of the two checks on them. -/
theorem eq_joint_of_geometryEvents {events : List Event} (h : geometryEvents p c = .ok events) :
    ∀ f ∈ Event.failures events, f = .joint .degenerate ∨ f = .joint .magnitude := by
  obtain ⟨_, spread, magnitude, -, -, -, hfailures, -⟩ := exists_of_geometryEvents h
  rw [hfailures]
  cases spread.degenerate <;> cases magnitude.passed <;> simp [jointFailures]

/-- What is found at the points of a curve is about the geometry. -/
theorem kind_of_geometryEvents {events : List Event} (h : geometryEvents p c = .ok events) :
    ∀ f ∈ Event.failures events, f.check.kind = .geometry := by
  intro f hf
  obtain rfl | rfl := eq_joint_of_geometryEvents h f hf
  · rfl
  · rfl

end Validation
end SpaceCurve
