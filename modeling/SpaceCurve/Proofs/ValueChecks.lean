import SpaceCurve.Proofs.Evaluation
import SpaceCurve.Proofs.PolicyValues
import SpaceCurve.Validation

/-!
# What the checks on values decide

Under a policy read from settings, and for an equation that parses, neither of the two checks on
values can fail to have an outcome: the sample points and the period are real numbers, at which the
equation has a value, and the tolerance is one, with which a distance can be compared.

* `exists_isFiniteAtSamples` — the first check passes when the values at all sample points are
  finite.
* `exists_isPeriodic` — the second one passes unless the values at zero and at the period are
  further apart than the tolerance.  A distance that is `nan` is not.
* `exists_failingAxes` — the axes that fail a check.
-/

set_option autoImplicit false

namespace SpaceCurve

/-! ## Sample points -/

theorem SampleValues.firstInvalidOf_cons (t : Value) (x : Float) (ts : List Value)
    (xs : List Float) :
    firstInvalidOf (t :: ts) (x :: xs) =
      if x.isFinite then firstInvalidOf ts xs else some t := by
  rw [firstInvalidOf, List.zip_cons_cons, List.find?_cons]
  cases x.isFinite <;> rfl

/-- Where the equation has a value at all points, the first point without a finite value is
missing exactly when all values are finite. -/
theorem SampleValues.exists_evaluateAt {e : Equation} {ts : List Value}
    (h : ∀ t ∈ ts, ∃ y, e.evaluate t = .ok y) :
    ∃ xs, evaluateAt e ts = .ok xs ∧ (firstInvalidOf ts xs = none ↔
      ∀ t ∈ ts, ∀ y, e.evaluate t = .ok y → y.isFinite = true) := by
  induction ts with
  | nil => exact ⟨[], rfl, by simp [firstInvalidOf]⟩
  | cons t rest ih =>
    obtain ⟨x, hx⟩ := h t (by simp)
    obtain ⟨xs, hxs, hiff⟩ := ih fun u hu => h u (List.mem_cons_of_mem _ hu)
    refine ⟨x :: xs, by rw [evaluateAt, hx, Except.bind, hxs]; rfl, ?_⟩
    rw [firstInvalidOf_cons, List.forall_mem_cons, ← hiff]
    cases hfinite : x.isFinite with
    | true => simp [hx, hfinite]
    | false => simp [hx, hfinite]

namespace Validation

variable {p : ValidationPolicy} {source : Value} {e : Equation}

/-- **An equation passes the first check when it is finite at all sample points.** -/
theorem exists_isFiniteAtSamples (fig : p.Figures) (he : Equation.parse source = .ok e) :
    ∃ passed, isFiniteAtSamples p e = .ok passed ∧
      (passed = true ↔ ∀ t ∈ fig.points, ∀ y, e.evaluate (.real t) = .ok y →
        y.isFinite = true) := by
  have hvalues : ∀ t ∈ fig.points.map Value.real, ∃ y, e.evaluate t = .ok y := by
    intro t ht
    obtain ⟨x, -, rfl⟩ := List.mem_map.1 ht
    exact exists_evaluate_of_parse he x
  obtain ⟨xs, hxs, hiff⟩ := SampleValues.exists_evaluateAt hvalues
  refine ⟨_, ?_, (Option.isNone_iff_eq_none.trans hiff).trans ?_⟩
  · simp only [isFiniteAtSamples, SampleValues.of, fig.samplePoints_eq, Value.elements,
      Except.mapError, bind, Except.bind, hxs]
    rfl
  · simp

/-! ## Periodicity -/

/-- **An equation passes the second check unless it is further from closing than the tolerance
allows.** -/
theorem exists_isPeriodic (fig : p.Figures) (he : Equation.parse source = .ok e) :
    ∃ a b, e.evaluate (.real 0.0) = .ok a ∧ e.evaluate p.period = .ok b ∧
      isPeriodic p e = .ok (!decide (fig.tolerance < (a - b).abs)) := by
  obtain ⟨a, ha⟩ := exists_evaluate_of_parse he 0.0
  obtain ⟨b, hb⟩ := exists_evaluate_of_parse he fig.period
  rw [← fig.period_eq] at hb
  refine ⟨a, b, ha, hb, ?_⟩
  rw [isPeriodic, Periodicity.of, ha, hb, fig.tolerance_eq]
  rfl

/-! ## The axes that fail -/

/-- A check that has an outcome on every equation has a list of axes that fail it. -/
theorem exists_failingAxes {passes : Equation → Except Fault Bool}
    {equations : List (Axis × Equation)} (h : ∀ q ∈ equations, ∃ b, passes q.2 = .ok b) :
    ∃ axes, failingAxes passes equations = .ok axes ∧ axes.Sublist (equations.map (·.1)) ∧
      ∀ a, a ∈ axes ↔ ∃ e, (a, e) ∈ equations ∧ passes e = .ok false := by
  induction equations with
  | nil => exact ⟨[], rfl, .slnil, by simp⟩
  | cons q rest ih =>
    obtain ⟨axis, e⟩ := q
    obtain ⟨b, hb⟩ := h (axis, e) (by simp)
    obtain ⟨axes, haxes, hsub, hiff⟩ := ih fun r hr => h r (List.mem_cons_of_mem _ hr)
    refine ⟨if b then axes else axis :: axes, by rw [failingAxes, hb, Except.bind, haxes]; rfl,
      ?_, fun a => ?_⟩
    · cases b with
      | true => exact hsub.cons axis
      | false => exact hsub.cons_cons axis
    · cases b with
      | true =>
        rw [if_pos rfl, hiff]
        refine exists_congr fun e' => ⟨fun ⟨hm, hf⟩ => ⟨List.mem_cons_of_mem _ hm, hf⟩, ?_⟩
        rintro ⟨hm, hf⟩
        rcases List.mem_cons.1 hm with heq | hm
        · cases heq
          rw [hb] at hf
          cases hf
        · exact ⟨hm, hf⟩
      | false =>
        rw [if_neg Bool.false_ne_true, List.mem_cons, hiff]
        constructor
        · rintro (rfl | ⟨e', hm, hf⟩)
          · exact ⟨e, by simp, hb⟩
          · exact ⟨e', List.mem_cons_of_mem _ hm, hf⟩
        · rintro ⟨e', hm, hf⟩
          rcases List.mem_cons.1 hm with heq | hm
          · exact .inl (Prod.mk.inj heq).1
          · exact .inr ⟨e', hm, hf⟩

end Validation
end SpaceCurve
