import SpaceCurve.Proofs.Verdicts

/-!
# The points of a curve, axis by axis

The two checks on the points of a curve look at rows: how far each point is from the first one, and
how large its coordinates are.  Both ask for something of all coordinates, so they can as well be
made on columns, the values that each equation takes on by itself.

* `values e ts` — the values of an equation at the parameters, one column of the points.
* `IsFlat`, `IsBounded` — a column stays close to its first value; it has no value beyond a bound.
* `exists_geometryEvents_columns` — **the points are degenerate when every column is flat, and they
  are within the bounds when every column is.**

So the checks do not depend on which equation stands on which axis.
-/

set_option autoImplicit false

namespace SpaceCurve

/-! ## Rows and columns -/

/-- Pieces of one length, put together, are cut into the pieces again. -/
theorem Grid.chunks_flatMap {α β : Type} {f : α → List β} {xs : List α} {m : Nat}
    (h : ∀ x ∈ xs, (f x).length = m) : chunks m xs.length (xs.flatMap f) = xs.map f := by
  induction xs with
  | nil => rfl
  | cons x xs ih =>
    have hx := h x (by simp)
    rw [List.length_cons, chunks, List.flatMap_cons, List.map_cons, ← hx, List.take_left,
      List.drop_left, hx, ih fun y hy => h y (List.mem_cons_of_mem _ hy)]

/-- Something holds of all pairs of two lists of one length if it holds of each list. -/
theorem forall_mem_zip {α β : Type} {xs : List α} {ys : List β} {P : α → Prop} {Q : β → Prop}
    (h : xs.length = ys.length) :
    (∀ q ∈ xs.zip ys, P q.1 ∧ Q q.2) ↔ (∀ x ∈ xs, P x) ∧ ∀ y ∈ ys, Q y := by
  have hfst : (xs.zip ys).map Prod.fst = xs := List.map_fst_zip h.le
  have hsnd : (xs.zip ys).map Prod.snd = ys := List.map_snd_zip h.ge
  constructor
  · intro hall
    refine ⟨fun x hx => ?_, fun y hy => ?_⟩
    · rw [← hfst] at hx
      obtain ⟨q, hq, rfl⟩ := List.mem_map.1 hx
      exact (hall q hq).1
    · rw [← hsnd] at hy
      obtain ⟨q, hq, rfl⟩ := List.mem_map.1 hy
      exact (hall q hq).2
  · rintro ⟨hxs, hys⟩ ⟨x, y⟩ hq
    obtain ⟨hx, hy⟩ := List.of_mem_zip hq
    exact ⟨hxs x hx, hys y hy⟩

/-- The coordinates of a point. -/
def coordinates (point : Float × Float × Float) : List Float := [point.1, point.2.1, point.2.2]

/-- The points that three columns make. -/
def pointsOf (columns : Axis → List Float) : List (Float × Float × Float) :=
  (columns .x).zip ((columns .y).zip (columns .z))

/-- **Something holds of all coordinates of all points if it holds of each column.** -/
theorem forall_pointsOf {columns : Axis → List Float} {n : Nat}
    (h : ∀ axis, (columns axis).length = n) {P : Axis → Float → Prop} :
    (∀ q ∈ pointsOf columns, P .x q.1 ∧ P .y q.2.1 ∧ P .z q.2.2) ↔
      ∀ axis, ∀ x ∈ columns axis, P axis x := by
  have hlen : (columns .x).length = ((columns .y).zip (columns .z)).length := by
    simp [h]
  have hlen' : (columns .y).length = (columns .z).length := by
    rw [h, h]
  rw [pointsOf, forall_mem_zip (Q := fun q => P .y q.1 ∧ P .z q.2) hlen, forall_mem_zip hlen']
  constructor
  · rintro ⟨hx, hy, hz⟩ axis
    cases axis with
    | x => exact hx
    | y => exact hy
    | z => exact hz
  · intro hall
    exact ⟨hall .x, hall .y, hall .z⟩

/-- The rows of three columns side by side are the points that they make. -/
theorem Curve.rows_stack {x y z : Grid Float} {n : Nat} (hx : x.Full) (hy : y.Full) (hz : z.Full)
    (hxn : x.shape = [n]) (hyn : y.shape = [n]) (hzn : z.shape = [n]) :
    (stack x y z).rows =
      (x.entries.zip (y.entries.zip z.entries)).map coordinates := by
  have hlength : ∀ {g : Grid Float}, g.Full → g.shape = [n] → g.entries.length = n := by
    intro g hg hn
    rw [Grid.Full, hn] at hg
    simpa [Grid.volume] using hg
  have hentries : (stack x y z).entries =
      (x.entries.zip (y.entries.zip z.entries)).flatMap coordinates := by
    rw [stack, hx.rows_line hxn, hy.rows_line hyn, hz.rows_line hzn, List.zip_map, List.zip_map,
      List.flatMap_map]
    rfl
  have hshape : (stack x y z).shape = [n, 3] := by simp [stack, hxn]
  have hpoints : (x.entries.zip (y.entries.zip z.entries)).length = n := by
    simp [hlength hx hxn, hlength hy hyn, hlength hz hzn]
  rw [Grid.rows_eq hshape, hentries, ← Grid.chunks_flatMap (f := coordinates) (m := 3)
    fun _ _ => rfl, hpoints]

/-! ## Columns -/

/-- The values of an equation at the parameters, one after another. -/
def Equation.values (e : Equation) (ts : Grid Float) : List Float :=
  match e.evaluateGrid ts with
  | .ok g => g.entries
  | .error _ => []

/-- All values of a column are closer to the first one than the tolerance. -/
def IsFlat (tolerance : Float) (column : List Float) : Prop :=
  ∀ first ∈ column.head?, ∀ x ∈ column, (x - first).abs < tolerance

/-- No value of a column is larger than the bound. -/
def IsBounded (bound : Float) (column : List Float) : Prop :=
  ∀ x ∈ column, ¬ bound < x.abs

/-- The points of a curve are those that its columns make. -/
theorem Curve.exists_pointsOn_columns {c : Curve} (hc : c.Parsed) {ts : Grid Float} {n : Nat}
    (hfull : ts.Full) (hts : ts.shape = [n]) :
    ∃ points, c.pointsOn ts = .ok points ∧ points.Full ∧ points.shape = [n, 3] ∧
      (∀ axis, ((c.get axis).values ts).length = n) ∧
      points.rows = (pointsOf fun axis => (c.get axis).values ts).map coordinates := by
  choose g hg hgfull hgn using hc.exists_values hfull hts
  have hcolumn : ∀ axis, (c.get axis).values ts = (g axis).entries := by
    intro axis
    rw [Equation.values, hg axis]
  have hx : c.x.evaluateGrid ts = .ok (g .x) := hg .x
  have hy : c.y.evaluateGrid ts = .ok (g .y) := hg .y
  have hz : c.z.evaluateGrid ts = .ok (g .z) := hg .z
  obtain ⟨htable, hshape⟩ :=
    full_stack (hgfull .x) (hgfull .y) (hgfull .z) (hgn .x) (hgn .y) (hgn .z)
  refine ⟨stack (g .x) (g .y) (g .z), ?_, htable, hshape, fun axis => ?_, ?_⟩
  · simp only [pointsOn, hx, hy, hz, Except.bind, Except.map]
  · have hlen := hgfull axis
    rw [Grid.Full, hgn axis] at hlen
    rw [hcolumn]
    simpa [Grid.volume] using hlen
  · rw [rows_stack (hgfull .x) (hgfull .y) (hgfull .z) (hgn .x) (hgn .y) (hgn .z), pointsOf,
      hcolumn, hcolumn, hcolumn]

/-- The columns begin with the coordinates of the first point. -/
theorem head?_of_pointsOf {columns : Axis → List Float} {point : Float × Float × Float}
    {rest : List (Float × Float × Float)} (h : pointsOf columns = point :: rest) :
    (columns .x).head? = some point.1 ∧ (columns .y).head? = some point.2.1 ∧
      (columns .z).head? = some point.2.2 := by
  rw [pointsOf] at h
  cases hx : columns .x with
  | nil => simp [hx] at h
  | cons a as =>
    cases hy : columns .y with
    | nil => simp [hy] at h
    | cons b bs =>
      cases hz : columns .z with
      | nil => simp [hz] at h
      | cons c cs =>
        simp only [hx, hy, hz, List.zip_cons_cons, List.cons.injEq] at h
        obtain ⟨rfl, -⟩ := h
        exact ⟨rfl, rfl, rfl⟩

/-- **All distances to the first point are below the tolerance when every column is flat.** -/
theorem forall_offsets_iff {columns : Axis → List Float} {n : Nat}
    (h : ∀ axis, (columns axis).length = n) {rows : List (List Float)} {first : List Float}
    {others : List (List Float)} (hrows : rows = (pointsOf columns).map coordinates)
    (hfirst : rows = first :: others) {tolerance : Float} :
    (∀ row ∈ rows, ∀ d ∈ Spread.offsets first row, d < tolerance) ↔
      ∀ axis, IsFlat tolerance (columns axis) := by
  obtain ⟨point, rest, hpoints, rfl, -⟩ := List.map_eq_cons_iff.1 (hrows.symm.trans hfirst)
  obtain ⟨hx, hy, hz⟩ := head?_of_pointsOf hpoints
  have hcolumns := forall_pointsOf h (P := fun axis x =>
    ∀ first ∈ (columns axis).head?, (x - first).abs < tolerance)
  simp only [hx, hy, hz, Option.mem_some_iff, forall_eq'] at hcolumns
  rw [hrows, List.forall_mem_map]
  refine Iff.trans ?_ (hcolumns.trans (forall_congr' fun axis => ⟨?_, ?_⟩))
  · refine forall_congr' fun q => forall_congr' fun _ => ?_
    simp [Spread.offsets, coordinates]
  · intro hall first hfirst x hx
    exact hall x hx first hfirst
  · intro hall x hx first hfirst
    exact hall first hfirst x hx

/-- **No coordinate of a point is beyond the bound when no value of a column is.** -/
theorem forall_entries_iff {columns : Axis → List Float} {n : Nat}
    (h : ∀ axis, (columns axis).length = n) {points : Grid Float} {m : Nat} (hfull : points.Full)
    (hshape : points.shape = [n, m]) (hrows : points.rows = (pointsOf columns).map coordinates)
    {bound : Float} :
    (∀ x ∈ points.entries, ¬ bound < x.abs) ↔ ∀ axis, IsBounded bound (columns axis) := by
  rw [← hfull.flatten_rows hshape, hrows, ← List.flatMap_def]
  refine Iff.trans ?_ (forall_pointsOf h (P := fun _ x => ¬ bound < x.abs))
  simp only [List.mem_flatMap, forall_exists_index, and_imp]
  constructor
  · intro hall q hq
    refine ⟨?_, ?_, ?_⟩ <;> exact hall _ q hq (by simp [coordinates])
  · intro hall x q hq hx
    obtain ⟨hqx, hqy, hqz⟩ := hall q hq
    simp only [coordinates, List.mem_cons, List.not_mem_nil, or_false] at hx
    rcases hx with rfl | rfl | rfl
    · exact hqx
    · exact hqy
    · exact hqz

namespace Validation

variable {p : ValidationPolicy} {c : Curve}

/-- The parameters at which the points of a curve are taken. -/
def parameters (fig : p.Figures) : Grid Float :=
  Sampling.valuesOf fig.samples.toNat false (.single fig.period)

/-- **What is found at the points of a curve, column by column.** -/
theorem exists_geometryEvents_columns [Machine] (fig : p.Figures) (hc : c.Parsed)
    (hroom : Machine.checkRoom fig.samples.toNat = .ok ()) :
    ∃ events degenerate bounded, geometryEvents p c = .ok events ∧
      Event.failures events = jointFailures degenerate bounded ∧
      (degenerate = true ↔
        ∀ axis, IsFlat fig.degeneracy ((c.get axis).values (parameters fig))) ∧
      (bounded = true ↔
        ∀ axis, IsBounded fig.magnitude ((c.get axis).values (parameters fig))) := by
  obtain ⟨points, hpoints, hfull, hshape, hlength, hrows⟩ := Curve.exists_pointsOn_columns hc
    (Sampling.full_valuesOf fig.samples.toNat false (Grid.full_single fig.period)) rfl
  have hsample : c.sample (samplingPolicy p) = .ok points := by
    rw [sample_eq fig, hroom]
    simp only [Except.mapError, Except.bind, hpoints]
  have hpos := fig.samples_pos
  obtain ⟨spread, first, others, hspread, hfirst, hdegenerate⟩ :=
    Spread.exists_of hfull hshape (by omega) fig.degeneracy
  obtain ⟨magnitude, hmagnitude, hpassed⟩ := Magnitude.exists_of hfull hshape fig.magnitude
  rw [← fig.degeneracy_eq] at hspread
  rw [← fig.magnitude_eq] at hmagnitude
  obtain ⟨events, hevents, hfailures, -⟩ := exists_geometryEvents_eq hsample hspread hmagnitude
  refine ⟨events, spread.degenerate, magnitude.passed, hevents, hfailures, ?_, ?_⟩
  · exact hdegenerate.trans (forall_offsets_iff hlength hrows hfirst)
  · exact hpassed.trans (forall_entries_iff hlength hfull hshape hrows)

end Validation
end SpaceCurve
