import SpaceCurve.Proofs.Placement

/-!
# Policy files that are not reported

A file that holds no policy should be reported as such.  Reading one catches two kinds of trouble:
text that is not JSON or not a record, and settings that are out of range.  Everything else is left
to whoever asked for the policy: bytes that are no text, JSON that is nested too deeply or has an
integer with too many digits, and settings that cannot be converted.

A conversion has a substitute for what cannot be converted, but not for a number that does not fit,
and sample points are gone through before any of them is converted.  `Unconvertible` says which
settings this leaves, of all that there can be.

## What is here

* `convert_fails_iff` — settings fail to be converted just if they are `Unconvertible`; after that
  nothing can fail any more, since what must be positive is a number (`exists_problems`).
* `Reported`, `Unreported` — loading ends with a policy or with a complaint; what the bytes of a
  file are like for which it does not.
* `reported_iff` — the former holds just if the latter does not, and a validation with the file ends
  with a status just if, moreover, there is room for the points of the curve.
-/

set_option autoImplicit false

namespace SpaceCurve

open Float.Model (UnpackedFloat)

/-! ## Values that cannot be converted -/

namespace Value

/-- Nothing, a truth value or a number: nothing can be gone through in it. -/
def IsScalar : Value → Prop
  | null => True
  | bool _ => True
  | int _ => True
  | real _ => True
  | _ => False

/-- An integer beyond the floats. -/
def IsHuge (v : Value) : Prop := ∃ i, v = .int i ∧ Binary64.ofInt? i = none

/-- An infinity. -/
def IsInfinite (v : Value) : Prop := ∃ x : Float, v = .real x ∧ x.isInf = true

theorem elements_fails_iff {v : Value} : Fails v.elements ↔ v.IsScalar := by
  cases v <;> simp [elements, IsScalar]

theorem coerceFloat_fails_iff {v default : Value} : Fails (v.coerceFloat default) ↔ v.IsHuge := by
  cases v with
  | int i => cases h : Binary64.ofInt? i <;> simp [coerceFloat, toFloat, orElse, IsHuge, h]
  | text s => cases h : Numeral.float? s <;> simp [coerceFloat, toFloat, orElse, IsHuge, h]
  | _ => simp [coerceFloat, toFloat, orElse, IsHuge]

/-- A number has no whole part just if it is infinite or none at all. -/
theorem truncate?_eq_none_iff {x : Float} :
    Binary64.truncate? x = none ↔ x.isInf = true ∨ x.isNaN = true := by
  show _ ↔ x.toModel.unpack.isInf = true ∨ x.toModel.unpack.isNaN = true
  rw [Binary64.truncate?, Option.map_eq_none_iff, Binary64.parts?]
  cases x.toModel.unpack with
  | zero s => cases s <;> simp [UnpackedFloat.isInf, UnpackedFloat.isNaN]
  | finite s m e => cases s <;> simp [UnpackedFloat.isInf, UnpackedFloat.isNaN]
  | _ => simp [UnpackedFloat.isInf, UnpackedFloat.isNaN]

theorem isNaN_of_isInf {x : Float} (h : x.isInf = true) : x.isNaN = false := by
  show x.toModel.unpack.isNaN = false
  replace h : x.toModel.unpack.isInf = true := h
  cases hx : x.toModel.unpack <;> simp_all [UnpackedFloat.isInf, UnpackedFloat.isNaN]

theorem isInf_of_truncate? {x : Float} {i : Int} (h : Binary64.truncate? x = some i) :
    x.isInf = false := by
  refine Bool.eq_false_iff.2 fun hinf => ?_
  cases h.symm.trans (truncate?_eq_none_iff.2 (.inl hinf))

theorem isInf_of_isNaN {x : Float} (h : x.isNaN = true) : x.isInf = false := by
  refine Bool.eq_false_iff.2 fun hinf => ?_
  cases h.symm.trans (isNaN_of_isInf hinf)

/-- What is not a number at all has a substitute, but an infinity has not. -/
theorem coerceInt_real_fails_iff {x : Float} {default : Value} :
    Fails ((real x).coerceInt default) ↔ x.isInf = true := by
  show Fails (orElse (real x).toInt int default) ↔ _
  cases htruncate : Binary64.truncate? x with
  | some i =>
    have hint : (real x).toInt = .ok i := by simp only [toInt, htruncate]
    rw [hint, isInf_of_truncate? htruncate]
    exact iff_of_false (not_fails_ok _) Bool.false_ne_true
  | none =>
    cases hnan : x.isNaN with
    | false =>
      have hfault : (real x).toInt = .error .outOfRange := by
        simp only [toInt, htruncate, hnan]
        rfl
      have hnumber : ¬ x.isNaN = true := Bool.eq_false_iff.1 hnan
      rw [hfault]
      exact iff_of_true (fails_error _) ((truncate?_eq_none_iff.1 htruncate).resolve_right hnumber)
    | true =>
      have hfault : (real x).toInt = .error .unreadable := by
        simp only [toInt, htruncate, hnan]
        rfl
      rw [hfault, isInf_of_isNaN hnan]
      exact iff_of_false (not_fails_ok _) Bool.false_ne_true

theorem coerceInt_fails_iff {v default : Value} :
    Fails (v.coerceInt default) ↔ v.IsInfinite := by
  cases v with
  | real x => simp [coerceInt_real_fails_iff, IsInfinite]
  | text s => cases h : Numeral.integer? s <;> simp [coerceInt, toInt, orElse, IsInfinite, h]
  | _ => simp [coerceInt, toInt, orElse, IsInfinite]

/-! ## Integers that can be shown -/

/-- The value is no integer with too many digits. -/
def IsShort (v : Value) : Prop := ∀ i, v = .int i → i.natAbs < 10 ^ Numeral.maxIntegerDigits

theorem checkShown_eq_ok {v : Value} (h : v.IsShort) : v.checkShown = .ok () := by
  cases v with
  | int i => rw [checkShown, Nat.pow_eq, if_pos (h i rfl)]
  | _ => rfl

/-- What can be read from JSON is short. -/
theorem isShort_of_plain {n : Nat} {v : Value} (h : Json.Plain n v) : v.IsShort := by
  rintro i rfl
  cases h with
  | int short => exact short

theorem two_pow_le_ten_pow {m n : Nat} (h : m ≤ n) : 2 ^ m ≤ 10 ^ n :=
  (Nat.pow_le_pow_left (by decide) m).trans (Nat.pow_le_pow_right (by decide) h)

theorem bounds_of_parts? {x : Float} {p : Binary64.Parts} (h : Binary64.parts? x = some p) :
    p.mantissa < 2 ^ 53 ∧ p.exponent ≤ 971 := by
  have hfinite : ∀ s m e hm, x.toModel.unpack = .finite s m e hm → m < 2 ^ 53 ∧ e ≤ 971 :=
    fun s m e hm hx => ⟨(Binary64.held_unpack hx).lt, (Binary64.held_unpack hx).le⟩
  rw [Binary64.parts?] at h
  cases hx : x.toModel.unpack with
  | notANumber => simp [hx] at h
  | infinity s => simp [hx] at h
  | zero s =>
    simp only [hx] at h
    cases s <;>
    · cases h
      decide
  | finite s m e hm =>
    simp only [hx] at h
    cases s <;>
    · cases h
      exact hfinite _ m e hm hx

theorem natAbs_truncate?_lt {x : Float} {i : Int} (h : Binary64.truncate? x = some i) :
    i.natAbs < 2 ^ 1024 := by
  obtain ⟨p, hp, rfl⟩ := Option.map_eq_some_iff.1 h
  obtain ⟨hmantissa, hexponent⟩ := bounds_of_parts? hp
  have hpow : (2 : Nat) ^ 1024 = 2 ^ 53 * 2 ^ 971 := by rw [← pow_add]
  have hscaled : ∀ c, 0 < c → p.mantissa < 2 ^ 53 * c := fun c hc =>
    hmantissa.trans_le (Nat.le_mul_of_pos_right _ hc)
  have hsize : (if 0 ≤ p.exponent then p.mantissa * Nat.pow 2 p.exponent.toNat
      else p.mantissa / Nat.pow 2 (-p.exponent).toNat) < 2 ^ 1024 := by
    rw [hpow]
    split
    · exact Nat.mul_lt_mul_of_lt_of_le hmantissa
        (Nat.pow_le_pow_right (by decide) (by omega)) (Nat.two_pow_pos _)
    · exact (Nat.div_le_self _ _).trans_lt (hscaled _ (Nat.two_pow_pos 971))
  generalize (if 0 ≤ p.exponent then p.mantissa * Nat.pow 2 p.exponent.toNat
    else p.mantissa / Nat.pow 2 (-p.exponent).toNat) = size at hsize
  cases p.negative with
  | false => exact hsize
  | true => exact (Int.natAbs_neg _).trans_lt hsize

theorem natAbs_integer?_lt {s : String} {i : Int} (h : Numeral.integer? s = some i) :
    i.natAbs < 10 ^ Numeral.maxIntegerDigits := by
  obtain ⟨⟨negative, ds⟩, -, h⟩ := Option.bind_eq_some_iff.1 h
  simp only at h
  split at h
  · cases h
  · next hds =>
    simp only [Bool.or_eq_true, decide_eq_true_eq, not_or, Bool.not_eq_true', Bool.not_eq_false,
      List.all_eq_true, Nat.not_lt] at hds
    have hlt := (Numeral.numberOf_lt hds.1.2).trans_le (Nat.pow_le_pow_right (by decide) hds.2)
    cases h
    cases negative with
    | false => exact hlt
    | true => rwa [if_pos rfl, Int.natAbs_neg]

theorem natAbs_toInt_lt {v : Value} (hv : v.IsShort) {i : Int} (h : v.toInt = .ok i) :
    i.natAbs < 10 ^ Numeral.maxIntegerDigits := by
  rw [toInt.eq_def] at h
  split at h
  · next b =>
    cases h
    have hone : (if b then 1 else 0 : Int).natAbs ≤ 1 := by cases b <;> decide
    exact hone.trans_lt (Nat.one_lt_pow (by decide) (by decide))
  · cases h
    exact hv i rfl
  · split at h
    · next htruncate =>
      cases h
      exact (natAbs_truncate?_lt htruncate).trans_le (two_pow_le_ten_pow (by decide))
    · cases h
  · split at h
    · next hinteger =>
      cases h
      exact natAbs_integer?_lt hinteger
    · cases h
  · cases h

/-- A conversion to an integer gives none with too many digits, unless it is given one. -/
theorem isShort_of_coerceInt {v w default : Value} (hv : v.IsShort) (hdefault : default.IsShort)
    (h : v.coerceInt default = .ok w) : w.IsShort := by
  rw [coerceInt.eq_def] at h
  split at h
  · cases h
    exact hdefault
  · cases h
    exact hdefault
  · rw [orElse.eq_def] at h
    split at h
    · next hi =>
      cases h
      rintro i ⟨⟩
      exact natAbs_toInt_lt hv hi
    · cases h
    · cases h
      exact hdefault

end Value

/-! ## Settings that cannot be converted -/

namespace ValidationPolicy

/-- The settings that are floats. -/
def floatNames : List String :=
  ["period", "periodicity_tolerance", "degeneracy_tolerance", "max_magnitude"]

/-- What settings are like that cannot be converted. -/
inductive Unconvertible (fields : Fields) : Prop
  /-- There is nothing to go through in the sample points. -/
  | scalar {v : Value} (hv : fields.get? "sample_points" = some v) (h : v.IsScalar)
  /-- One of the sample points is an integer beyond the floats. -/
  | point {v point : Value} {points : List Value} (hv : fields.get? "sample_points" = some v)
      (hpoints : v.elements = .ok points) (hmem : point ∈ points) (h : point.IsHuge)
  /-- A float is given as an integer beyond the floats. -/
  | float {name : String} {v : Value} (hname : name ∈ floatNames) (hv : fields.get? name = some v)
      (h : v.IsHuge)
  /-- The number of points is infinite. -/
  | samples {v : Value} (hv : fields.get? "geometry_samples" = some v) (h : v.IsInfinite)

theorem coercePoints_fails_iff {vs : List Value} :
    Fails (coercePoints vs) ↔ ∃ v ∈ vs, v.IsHuge := by
  induction vs with
  | nil => simp [coercePoints]
  | cons v rest ih =>
    have hrest : ∀ x, Fails ((coercePoints rest).map fun xs => x :: xs) ↔ ∃ v ∈ rest, v.IsHuge :=
      fun x => fails_map_iff.trans ih
    rw [coercePoints, fails_bind_iff hrest, Value.coerceFloat_fails_iff, List.exists_mem_cons_iff]

theorem convertPoints_fails_iff {v : Value} :
    Fails (convertPoints v) ↔
      v.IsScalar ∨ ∃ points, v.elements = .ok points ∧ ∃ point ∈ points, point.IsHuge := by
  rw [convertPoints, ← Value.elements_fails_iff]
  cases h : v.elements with
  | error e => simp [Except.bind]
  | ok points => simp [Except.bind, fails_map_iff, coercePoints_fails_iff]

theorem settings_convert_fails_iff {fields : Fields} {name : String} {default : Value}
    {conversion : Value → Except ValueFault Value} :
    Fails (Settings.convert fields name default conversion) ↔
      ∃ v, fields.get? name = some v ∧ Fails (conversion v) := by
  rw [Settings.convert]
  cases fields.get? name <;> simp

/-- **Settings fail to be converted** just if they are unconvertible. -/
theorem convert_fails_iff {fields : Fields} : Fails (convert fields) ↔ Unconvertible fields := by
  have hsteps : Fails (convert fields) ↔ _ :=
    fails_bind_iff fun _ => fails_bind_iff fun _ => fails_bind_iff fun _ => fails_bind_iff fun _ =>
      fails_bind_iff fun _ => fails_bind_iff fun _ => iff_false_intro (not_fails_ok _)
  rw [hsteps]
  simp only [settings_convert_fails_iff, Value.coerceFloat_fails_iff, Value.coerceInt_fails_iff,
    convertPoints_fails_iff]
  constructor
  · rintro (⟨v, hv, h | ⟨points, hpoints, point, hmem, h⟩⟩ | ⟨v, hv, h⟩ | ⟨v, hv, h⟩ | ⟨v, hv, h⟩ |
      ⟨v, hv, h⟩ | ⟨v, hv, h⟩ | h)
    · exact .scalar hv h
    · exact .point hv hpoints hmem h
    · exact .float (by decide) hv h
    · exact .float (by decide) hv h
    · exact .float (by decide) hv h
    · exact .float (by decide) hv h
    · exact .samples hv h
    · exact h.elim
  · rintro (⟨hv, h⟩ | ⟨hv, hpoints, hmem, h⟩ | ⟨hname, hv, h⟩ | ⟨hv, h⟩)
    · exact .inl ⟨_, hv, .inl h⟩
    · exact .inl ⟨_, hv, .inr ⟨_, hpoints, _, hmem, h⟩⟩
    · simp only [floatNames, List.mem_cons, List.not_mem_nil, or_false] at hname
      rcases hname with rfl | rfl | rfl | rfl
      · exact .inr (.inl ⟨_, hv, h⟩)
      · exact .inr (.inr (.inl ⟨_, hv, h⟩))
      · exact .inr (.inr (.inr (.inl ⟨_, hv, h⟩)))
      · exact .inr (.inr (.inr (.inr (.inl ⟨_, hv, h⟩))))
    · exact .inr (.inr (.inr (.inr (.inr (.inl ⟨_, hv, h⟩)))))

/-! ## After the conversion -/

theorem exists_problem?_of_number {fields : Fields} {name : String} {v : Value} {n : Value.Number}
    (hv : Settings.lookup fields name = some v) (hn : v.number = .ok n) (hshort : v.IsShort) :
    ∃ r, Settings.problem? fields name = .ok r := by
  have hlookup : Settings.problem? fields name =
      (v.isAbove (.whole 0)).bind fun positive =>
        if positive then .ok none else v.checkShown.map fun _ => some (.notPositive name v) := by
    rw [Settings.problem?, hv]
    cases v with
    | null => cases hn
    | _ => rfl
  have habove : v.isAbove (.whole 0) = .ok (Value.Number.lt (.whole 0) n) := by
    rw [Value.isAbove, hn]
    rfl
  rw [hlookup, habove, Value.checkShown_eq_ok hshort]
  cases Value.Number.lt (.whole 0) n with
  | true => exact ⟨_, rfl⟩
  | false => exact ⟨_, rfl⟩

theorem exists_problems_of_number {fields : Fields} {names : List String}
    (h : ∀ name ∈ names, ∃ v n, Settings.lookup fields name = some v ∧ v.number = .ok n ∧
      v.IsShort) :
    ∃ ps, Settings.problems fields names = .ok ps := by
  induction names with
  | nil => exact ⟨[], rfl⟩
  | cons name rest ih =>
    obtain ⟨⟨v, n, hv, hn, hshort⟩, hrest⟩ := List.forall_mem_cons.1 h
    obtain ⟨r, hr⟩ := exists_problem?_of_number hv hn hshort
    obtain ⟨ps, hps⟩ := ih hrest
    exact ⟨r.toList ++ ps, by rw [Settings.problems, hr, hps]; rfl⟩

/-- If the number of points is given as a short value, it is a short number. -/
theorem isShort_of_convert {fields : Fields} {p : ValidationPolicy} (h : convert fields = .ok p)
    (hshort : ∀ v, fields.get? "geometry_samples" = some v → v.IsShort) :
    p.geometrySamples.IsShort := by
  have hdefault : Value.IsShort (.int 10) := by
    rintro i ⟨⟩
    exact Nat.lt_of_lt_of_le (by decide : 10 < 10 ^ 2) (Nat.pow_le_pow_right (by decide) (by decide))
  obtain ⟨_, -, h⟩ := bind_eq_ok_iff.1 h
  obtain ⟨_, -, h⟩ := bind_eq_ok_iff.1 h
  obtain ⟨_, -, h⟩ := bind_eq_ok_iff.1 h
  obtain ⟨_, -, h⟩ := bind_eq_ok_iff.1 h
  obtain ⟨_, -, h⟩ := bind_eq_ok_iff.1 h
  obtain ⟨samples, hsamples, h⟩ := bind_eq_ok_iff.1 h
  cases h
  rw [Settings.convert] at hsamples
  split at hsamples
  · next v hv => exact Value.isShort_of_coerceInt (hshort v hv) hdefault hsamples
  · cases hsamples
    exact hdefault

/-- What must be positive has been converted to numbers, so it can be said whether it is. -/
theorem exists_problems {fields : Fields} {p : ValidationPolicy} (h : convert fields = .ok p)
    (hshort : ∀ v, fields.get? "geometry_samples" = some v → v.IsShort) :
    ∃ ps, p.problems = .ok ps := by
  have hsamplesShort := isShort_of_convert h hshort
  have hrealShort : ∀ x, Value.IsShort (.real x) := nofun
  obtain ⟨-, ⟨period, hperiod⟩, ⟨tolerance, htolerance⟩, ⟨degeneracy, hdegeneracy⟩,
    ⟨magnitude, hmagnitude⟩, ⟨samples, hsamples⟩⟩ := exists_numbers_of_convert h
  have hnumbers : ∀ name ∈ positiveNames,
      ∃ v n, Settings.lookup p.toFields name = some v ∧ v.number = .ok n ∧ v.IsShort := by
    intro name hname
    simp only [positiveNames, List.mem_cons, List.not_mem_nil, or_false] at hname
    rcases hname with rfl | rfl | rfl | rfl | rfl
    · exact ⟨_, _, congrArg some hperiod, rfl, hrealShort _⟩
    · exact ⟨_, _, congrArg some htolerance, rfl, hrealShort _⟩
    · exact ⟨_, _, congrArg some hsamples, rfl, hsamples ▸ hsamplesShort⟩
    · exact ⟨_, _, congrArg some hdegeneracy, rfl, hrealShort _⟩
    · exact ⟨_, _, congrArg some hmagnitude, rfl, hrealShort _⟩
  obtain ⟨ps, hps⟩ := exists_problems_of_number hnumbers
  exact ⟨_, by rw [problems, hps]; rfl⟩

/-- Settings that are short make a policy, or are out of range, unless they are unconvertible. -/
theorem ofSettings_value_iff {fields : Fields} (hshort : ∀ f ∈ fields, f.2.IsShort) :
    (∃ cause, ofSettings fields = .error (.value cause)) ↔
      Unconvertible (Settings.keep names (Settings.renameAll aliases fields)) := by
  rw [← convert_fails_iff]
  constructor
  · rintro ⟨cause, h⟩
    rcases bind_eq_error_iff.1 h with h | ⟨p, hp, h⟩
    · obtain ⟨cause, h, -⟩ := mapError_eq_error_iff.1 h
      exact ⟨cause, h⟩
    · have hunderstood : ∀ v, (understood fields).get? "geometry_samples" = some v →
          v.IsShort := fun v hv => by
        rw [get?_understood, if_pos (by decide)] at hv
        obtain ⟨f, hf, rfl⟩ := Settings.exists_of_stated hv
        exact hshort f hf
      obtain ⟨ps, hps⟩ := exists_problems (mapError_eq_ok_iff.1 hp) hunderstood
      rcases bind_eq_error_iff.1 h with h | ⟨ps', -, h⟩
      · obtain ⟨cause, h, -⟩ := mapError_eq_error_iff.1 h
        cases h.symm.trans hps
      · split at h <;> cases h
  · rintro ⟨cause, h⟩
    exact ⟨cause, bind_eq_error_iff.2 (.inl (by rw [h]; rfl))⟩

end ValidationPolicy

/-! ## Files -/

/-- Loading a policy ends as it should: with a policy, or with a complaint. -/
def Reported (result : Except PolicyFileFault ValidationPolicy) : Prop :=
  (∃ p, result = .ok p) ∨ ∃ fault message, result = .error fault ∧ fault.report? = some message

/-- The bytes of a file for which it does not. -/
inductive Unreported [Machine] (bytes : ByteArray) : Prop
  /-- They are no text. -/
  | notText (h : String.fromUTF8? bytes = none)
  /-- The JSON in them is nested too deeply. -/
  | tooDeep {text : String} (htext : String.fromUTF8? bytes = some text)
      (h : Json.read text = .error .tooDeep)
  /-- The JSON in them has an integer with too many digits. -/
  | integerTooLong {text : String} (htext : String.fromUTF8? bytes = some text)
      (h : Json.read text = .error .integerTooLong)
  /-- They are settings, under their current names, that cannot be converted. -/
  | settings {text : String} {fields : Fields} (htext : String.fromUTF8? bytes = some text)
      (hread : Json.read text = .ok (.record fields))
      (h : ValidationPolicy.Unconvertible (Settings.keep ValidationPolicy.names
        (Settings.renameAll ValidationPolicy.aliases fields)))

theorem reported_iff_forall {result : Except PolicyFileFault ValidationPolicy} :
    Reported result ↔ ¬ ∃ fault, result = .error fault ∧ fault.report? = none := by
  cases result with
  | ok p => simp [Reported]
  | error fault => cases h : fault.report? <;> simp [Reported, h]

/-- The text of a file is not reported just if it is refused before all of it has been read. -/
theorem settings_silent_iff [Machine] {path text : String} :
    (∃ fault, PolicyFile.settings path text = .error fault ∧ fault.report? = none) ↔
      Json.read text = .error .tooDeep ∨ Json.read text = .error .integerTooLong := by
  rw [PolicyFile.settings.eq_def]
  split <;> simp_all [PolicyFileFault.report?]

/-- Settings that are short are not reported just if they cannot be converted. -/
theorem ofSettings_silent_iff {fields : Fields} (hshort : ∀ f ∈ fields, f.2.IsShort) :
    (∃ fault, (ValidationPolicy.ofSettings fields).mapError PolicyFileFault.policy = .error fault ∧
      fault.report? = none) ↔
      ValidationPolicy.Unconvertible (Settings.keep ValidationPolicy.names
        (Settings.renameAll ValidationPolicy.aliases fields)) := by
  rw [← ValidationPolicy.ofSettings_value_iff hshort]
  constructor
  · rintro ⟨fault, h, hnone⟩
    obtain ⟨cause, hcause, rfl⟩ := mapError_eq_error_iff.1 h
    cases cause with
    | value cause => exact ⟨cause, hcause⟩
    | invalid task problems => cases hnone
  · rintro ⟨cause, h⟩
    exact ⟨.policy (.value cause), mapError_eq_error_iff.2 ⟨_, h, rfl⟩, rfl⟩

theorem ofBytes_of_text [Machine] {path text : String} {bytes : ByteArray}
    (htext : String.fromUTF8? bytes = some text) :
    PolicyFile.ofBytes path (some bytes) = (PolicyFile.settings path text).bind fun fields =>
      (ValidationPolicy.ofSettings fields).mapError .policy := by
  simp only [PolicyFile.ofBytes, htext]

/-- The settings in a file are short. -/
theorem isShort_of_settings [Machine] {path text : String} {fields : Fields}
    (h : PolicyFile.settings path text = .ok fields) : ∀ f ∈ fields, f.2.IsShort := fun f hf =>
  Value.isShort_of_plain
    ((Json.plain_of_readWithin (PolicyFile.settings_eq_ok_iff.1 h)).of_mem_fields f hf)

/-- **What a file may hold that is not reported.** -/
theorem ofBytes_silent_iff [Machine] {path : String} {bytes : ByteArray} :
    (∃ fault, PolicyFile.ofBytes path (some bytes) = .error fault ∧ fault.report? = none) ↔
      Unreported bytes := by
  cases htext : String.fromUTF8? bytes with
  | none =>
    have hload : PolicyFile.ofBytes path (some bytes) = .error .notText := by
      simp only [PolicyFile.ofBytes, htext]
    exact ⟨fun _ => .notText htext, fun _ => ⟨_, hload, rfl⟩⟩
  | some text =>
    rw [ofBytes_of_text htext]
    constructor
    · rintro ⟨fault, h, hnone⟩
      rcases bind_eq_error_iff.1 h with h | ⟨fields, hfields, h⟩
      · rcases settings_silent_iff.1 ⟨fault, h, hnone⟩ with h | h
        · exact .tooDeep htext h
        · exact .integerTooLong htext h
      · exact .settings htext (PolicyFile.settings_eq_ok_iff.1 hfields)
          ((ofSettings_silent_iff (isShort_of_settings hfields)).1 ⟨fault, h, hnone⟩)
    · rintro (h | ⟨htext', h⟩ | ⟨htext', h⟩ | ⟨htext', hread, h⟩)
      · cases h.symm.trans htext
      · obtain rfl := Option.some.inj (htext.symm.trans htext')
        obtain ⟨fault, hfault, hnone⟩ := (@settings_silent_iff _ path text).2 (.inl h)
        exact ⟨fault, bind_eq_error_iff.2 (.inl hfault), hnone⟩
      · obtain rfl := Option.some.inj (htext.symm.trans htext')
        obtain ⟨fault, hfault, hnone⟩ := (@settings_silent_iff _ path text).2 (.inr h)
        exact ⟨fault, bind_eq_error_iff.2 (.inl hfault), hnone⟩
      · obtain rfl := Option.some.inj (htext.symm.trans htext')
        have hfields := (@PolicyFile.settings_eq_ok_iff _ path _ _).2 hread
        obtain ⟨fault, hfault, hnone⟩ := (ofSettings_silent_iff (isShort_of_settings hfields)).2 h
        exact ⟨fault, bind_eq_error_iff.2 (.inr ⟨_, hfields, hfault⟩), hnone⟩

/-! ## Validation with a policy file -/

namespace Command

/-- The run ends with a status, which is two just if there is no policy in the file. -/
def Ends (load : Except PolicyFileFault ValidationPolicy) (run : Except RunFault Outcome) : Prop :=
  ∃ outcome, run = .ok outcome ∧ outcome.code ∈ [0, 1, 2] ∧ (outcome.code = 2 ↔ Fails load)

theorem not_ends_error {load : Except PolicyFileFault ValidationPolicy} {cause : RunFault} :
    ¬ Ends load (.error cause) := by
  rintro ⟨outcome, h, -⟩
  cases h

theorem ends_failWith (fault : PolicyFileFault) (message : String) :
    Ends (.error fault) (.ok (failWith 2 [] message)) :=
  ⟨_, rfl, by simp [failWith]⟩

variable [Machine] {read : String → Option ByteArray} {x y z path : String}

theorem plan_policy (hx : IsSource x) (hy : IsSource y) (hz : IsSource z)
    (hflag : looksLikeFlag path = false) :
    plan ["validate", x, y, z, "--policy", path] =
      .command .validate false (.flag .policy (some path) :: sourceUses x y z) := by
  have hsettings : ∀ g ∈ givens [.inr x, .inr y, .inr z, .inl (.followed .policy "--policy" path)],
      IsSetting g := by
    simpa [givens] using IsSetting.policy hflag
  exact plan_validate hx hy hz hsettings rfl

/-- With a policy from the file, what is reported is the verdict under it. -/
theorem runLine_of_load {p : ValidationPolicy} (hx : IsSource x) (hy : IsSource y)
    (hz : IsSource z) (hne : path ≠ "") (hflag : looksLikeFlag path = false)
    (hload : PolicyFile.load read path = .ok p) :
    runLine read ["validate", x, y, z, "--policy", path] =
      ((Validation.run ⟨.text x, .text y, .text z⟩ p).map (report false p)).mapError .check := by
  have hpolicy := (Selects.file hne hload).policyFor
  rw [runLine, plan_policy hx hy hz hflag]
  exact runValidate_of_policyFor hpolicy

/-- A fault of the file that is reported ends the run with the status two. -/
theorem runLine_of_report {fault : PolicyFileFault} {message : String} (hx : IsSource x)
    (hy : IsSource y) (hz : IsSource z) (hne : path ≠ "") (hflag : looksLikeFlag path = false)
    (hload : PolicyFile.load read path = .error fault) (hreport : fault.report? = some message) :
    runLine read ["validate", x, y, z, "--policy", path] = .ok (failWith 2 [] message) := by
  have hpolicy : policyFor read (some path) = .ok (.error (failWith 2 [] message)) := by
    simp [policyFor, Option.filter, hne, hload, hreport]
  rw [runLine, plan_policy hx hy hz hflag]
  exact runValidate_of_outcome hpolicy

/-- A fault that is not reported cuts it off. -/
theorem runLine_of_silent {fault : PolicyFileFault} (hx : IsSource x) (hy : IsSource y)
    (hz : IsSource z) (hne : path ≠ "") (hflag : looksLikeFlag path = false)
    (hload : PolicyFile.load read path = .error fault) (hnone : fault.report? = none) :
    runLine read ["validate", x, y, z, "--policy", path] = .error (.policyFile fault) := by
  have hpolicy : policyFor read (some path) = .error (.policyFile fault) := by
    simp [policyFor, Option.filter, hne, hload, hnone]
  rw [runLine, plan_policy hx hy hz hflag]
  exact runValidate_of_fault hpolicy

theorem ends_report (p : ValidationPolicy) (r : Validation.Run) :
    Ends (.ok p) (.ok (report false p r)) := by
  refine ⟨_, rfl, ?_⟩
  cases h : (r.verdict p).isValid <;> simp [report, h]

/-- The run ends with a status just if the file is reported and there is a verdict. -/
theorem ends_iff (hx : IsSource x) (hy : IsSource y) (hz : IsSource z) (hne : path ≠ "")
    (hflag : looksLikeFlag path = false) :
    Ends (PolicyFile.load read path) (runLine read ["validate", x, y, z, "--policy", path]) ↔
      Reported (PolicyFile.load read path) ∧ ∀ p, PolicyFile.load read path = .ok p →
        ¬ Fails (SpaceCurve.validate ⟨.text x, .text y, .text z⟩ p) := by
  cases hload : PolicyFile.load read path with
  | ok p =>
    have hreported : Reported (.ok p) := .inl ⟨p, rfl⟩
    rw [runLine_of_load hx hy hz hne hflag hload]
    cases hr : Validation.run ⟨.text x, .text y, .text z⟩ p with
    | ok r =>
      exact iff_of_true (ends_report p r) ⟨hreported, by simp [SpaceCurve.validate, hr, Except.map]⟩
    | error fault =>
      exact iff_of_false not_ends_error fun h =>
        h.2 p rfl (by simp [SpaceCurve.validate, hr, Except.map])
  | error fault =>
    cases hreport : fault.report? with
    | some message =>
      rw [runLine_of_report hx hy hz hne hflag hload hreport]
      exact iff_of_true (ends_failWith fault message)
        ⟨.inr ⟨fault, message, rfl, hreport⟩, fun p hp => by cases hp⟩
    | none =>
      rw [runLine_of_silent hx hy hz hne hflag hload hreport]
      exact iff_of_false not_ends_error fun h => reported_iff_forall.1 h.1 ⟨fault, rfl, hreport⟩

end Command

open Command

/-- **When a policy file is reported.**  Of a file that is there, loading ends with a policy or with
a complaint just if its bytes are none of those that are not reported.  A validation of three
equations with the file ends with a status just if, besides, there is a verdict under the policy,
and for this it is enough that there is room for the points of the curve. -/
theorem reported_iff [Machine] (read : String → Option ByteArray) {path : String} {bytes : ByteArray}
    (hpath : '\x00' ∉ path.toList) (hread : read (Path.tidy path) = some bytes) :
    (Reported (PolicyFile.load read path) ↔ ¬ Unreported bytes) ∧
      ∀ x y z, IsSource x → IsSource y → IsSource z → path ≠ "" → looksLikeFlag path = false →
        (Ends (PolicyFile.load read path) (runLine read ["validate", x, y, z, "--policy", path]) ↔
          ¬ Unreported bytes ∧ ∀ p, PolicyFile.load read path = .ok p →
            ¬ Fails (SpaceCurve.validate ⟨.text x, .text y, .text z⟩ p)) ∧
        ∀ p, PolicyFile.load read path = .ok p → ∃ n : Nat, p.geometrySamples = .int n ∧
          (Machine.checkRoom n = .ok () →
            ¬ Fails (SpaceCurve.validate ⟨.text x, .text y, .text z⟩ p)) := by
  have hload : PolicyFile.load read path = PolicyFile.ofBytes (Path.tidy path) (some bytes) := by
    have hpossible : ¬ (path.toList.any fun c => c.toNat == 0) = true := by
      intro hany
      obtain ⟨c, hc, hzero⟩ := List.any_eq_true.1 hany
      obtain rfl : c = '\x00' := Char.toNat_inj.1 (beq_iff_eq.1 hzero)
      exact hpath hc
    rw [PolicyFile.load, hread, if_neg hpossible]
  have hreported : Reported (PolicyFile.load read path) ↔ ¬ Unreported bytes := by
    rw [reported_iff_forall, hload, ofBytes_silent_iff]
  refine ⟨hreported, fun x y z hx hy hz hne hflag => ⟨?_, fun p hp => ?_⟩⟩
  · rw [ends_iff hx hy hz hne hflag, hreported]
  · obtain ⟨fields, hfields, -⟩ := (Selects.file hne hp).exists_settings
    obtain ⟨n, hn, hroom⟩ := exists_validate_ease hfields false
    refine ⟨n, hn, fun h hfails => ?_⟩
    obtain ⟨v, hv⟩ := hroom h ⟨.text x, .text y, .text z⟩
    obtain ⟨fault, hfault⟩ := hfails
    cases hfault.symm.trans hv

/-- Sample points that there is nothing to go through in. -/
theorem reported_iff_null :
    letI := Machine.ample
    '\x00' ∉ "p.json".toList ∧ IsSource "-t" ∧ looksLikeFlag "p.json" = false ∧
      ¬ Reported
        (PolicyFile.load (fun _ => some "\x7b\"sample_points\": null\x7d".toUTF8) "p.json") ∧
      ¬ Ends (PolicyFile.load (fun _ => some "\x7b\"sample_points\": null\x7d".toUTF8) "p.json")
        (runLine (fun _ => some "\x7b\"sample_points\": null\x7d".toUTF8)
          ["validate", "-t", "-t", "-t", "--policy", "p.json"]) := by
  let _ := Machine.ample
  have hpath : '\x00' ∉ "p.json".toList := by decide
  have hsource : IsSource "-t" := isSource_of (by decide) (by decide +kernel)
  have hflag : looksLikeFlag "p.json" = false := by decide +kernel
  have hbytes : Unreported "\x7b\"sample_points\": null\x7d".toUTF8 :=
    .settings rfl rfl (.scalar rfl trivial)
  obtain ⟨hreported, hends⟩ :=
    reported_iff (fun _ => some "\x7b\"sample_points\": null\x7d".toUTF8) hpath rfl
  exact ⟨hpath, hsource, hflag, fun h => hreported.1 h hbytes, fun h =>
    ((hends "-t" "-t" "-t" hsource hsource hsource (by decide) hflag).1.1 h).1 hbytes⟩

/-- A byte that is no text is not reported, and the validation does not end with a status. -/
theorem not_reported_lone_byte :
    letI := Machine.ample
    ¬ Reported (PolicyFile.load (fun _ => some ⟨#[0xff]⟩) "p.json") ∧
      ¬ Ends (PolicyFile.load (fun _ => some ⟨#[0xff]⟩) "p.json")
        (runLine (fun _ => some ⟨#[0xff]⟩) ["validate", "t", "t", "t", "--policy", "p.json"]) := by
  let _ := Machine.ample
  have hsource : IsSource "t" := isSource_of (by decide) (by decide +kernel)
  have hload : PolicyFile.load (fun _ => some ⟨#[0xff]⟩) "p.json" = .error .notText := rfl
  refine ⟨fun h => reported_iff_forall.1 h ⟨_, hload, rfl⟩, ?_⟩
  rw [runLine_of_silent hsource hsource hsource (by decide) (by decide +kernel) hload rfl]
  exact not_ends_error

end SpaceCurve
