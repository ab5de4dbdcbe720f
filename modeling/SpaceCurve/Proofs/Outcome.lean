import Mathlib

/-!
# Outcomes of computations that may fail

When a computation made of others succeeds or fails, in terms of its parts.
-/

set_option autoImplicit false

namespace SpaceCurve

variable {α β γ ε φ : Type}

theorem bind_eq_ok_iff {x : Except ε α} {f : α → Except ε β} {b : β} :
    x.bind f = .ok b ↔ ∃ a, x = .ok a ∧ f a = .ok b := by
  cases x <;> simp [Except.bind]

theorem bind_eq_error_iff {x : Except ε α} {f : α → Except ε β} {e : ε} :
    x.bind f = .error e ↔ x = .error e ∨ ∃ a, x = .ok a ∧ f a = .error e := by
  cases x <;> simp [Except.bind]

theorem map_eq_ok_iff {x : Except ε α} {f : α → β} {b : β} :
    x.map f = .ok b ↔ ∃ a, x = .ok a ∧ f a = b := by
  cases x <;> simp [Except.map]

theorem map_eq_error_iff {x : Except ε α} {f : α → β} {e : ε} :
    x.map f = .error e ↔ x = .error e := by
  cases x <;> simp [Except.map]

theorem mapError_eq_ok_iff {x : Except ε α} {f : ε → φ} {a : α} :
    x.mapError f = .ok a ↔ x = .ok a := by
  cases x <;> simp [Except.mapError]

theorem mapError_eq_error_iff {x : Except ε α} {f : ε → φ} {e : φ} :
    x.mapError f = .error e ↔ ∃ e', x = .error e' ∧ f e' = e := by
  cases x <;> simp [Except.mapError]

/-! ## Failure -/

/-- The computation fails, with whatever error. -/
def Fails (x : Except ε α) : Prop := ∃ e, x = .error e

@[simp]
theorem not_fails_ok (a : α) : ¬ Fails (.ok a : Except ε α) := nofun

@[simp]
theorem fails_error (e : ε) : Fails (.error e : Except ε α) := ⟨e, rfl⟩

theorem fails_map_iff {x : Except ε α} {f : α → β} : Fails (x.map f) ↔ Fails x := by
  cases x <;> simp [Except.map]

/-- When what comes second fails or not whatever the first computation returns. -/
theorem fails_bind_iff {x : Except ε α} {f : α → Except ε β} {P : Prop}
    (h : ∀ a, Fails (f a) ↔ P) : Fails (x.bind f) ↔ Fails x ∨ P := by
  cases x <;> simp [Except.bind, h]

/-! ## Errors -/

/-- The error of a computation, if it fails. -/
def error? : Except ε α → Option ε
  | .ok _ => none
  | .error e => some e

theorem error?_eq_none_iff {x : Except ε α} : error? x = none ↔ ∃ a, x = .ok a := by
  cases x <;> simp [error?]

theorem error?_eq_some_iff {x : Except ε α} {e : ε} : error? x = some e ↔ x = .error e := by
  cases x <;> simp [error?]

theorem error?_map (x : Except ε α) (f : α → β) : error? (x.map f) = error? x := by
  cases x <;> rfl

/-- Of two computations that are made one after the other, the first one's error comes first. -/
theorem error?_bind_map (x : Except ε α) (y : Except ε β) (f : α → β → γ) :
    error? (x.bind fun a => y.map (f a)) = (error? x).or (error? y) := by
  cases x with
  | ok a => exact error?_map y (f a)
  | error e => rfl

end SpaceCurve
