import SpaceCurve.Proofs.Arguments
import SpaceCurve.Proofs.Reports

/-!
# Where the flags of a validation stand

Three equations are validated from the command line, with flags before, between and behind them.
It does not matter where the flags stand, and an equation is an equation even if it begins with a
minus sign.

## What is here

* `IsSetting` — the four ways to give a setting: two flags without a value, and the path of a policy
  in the next argument or attached.
* `IsSource` — what may be given as an equation: any text that is not spelled like a flag.
* `Selects` — which policy the last path selects; without a path, or with an empty one, it is the
  default policy.
* `runLine_interleaved` — every interleaving of the same settings with the same equations has one
  result, and where a policy is selected, it is the report on the verdict under this policy.
-/

set_option autoImplicit false

namespace SpaceCurve

/-- The settings in a file are a record that has been read. -/
theorem PolicyFile.settings_eq_ok_iff [Machine] {path text : String} {fields : Fields} :
    PolicyFile.settings path text = .ok fields ↔ Json.read text = .ok (.record fields) := by
  rw [PolicyFile.settings.eq_def]
  split <;> simp_all

namespace Command

/-! ## Settings and equations -/

/-- A setting of a validation.  A path in an argument of its own must not look like a flag. -/
inductive IsSetting : Given → Prop
  | lenient : IsSetting (.bare .lenient "--lenient")
  | json : IsSetting (.bare .json "--json")
  | policy {path : String} (h : looksLikeFlag path = false) :
      IsSetting (.followed .policy "--policy" path)
  | attached (path : String) : IsSetting (.attached .policy "--policy" path)

/-- The path that a setting gives, if it gives one. -/
def Given.path? : Given → Option String
  | bare _ _ => none
  | followed _ _ path => some path
  | attached _ _ path => some path

/-- A text that is no flag of a validation, neither alone nor with a value attached. -/
structure IsSource (x : String) : Prop where
  ne_separator : x ≠ "--"
  ne_name : x ∉ ["-h", "--help", "--policy", "--lenient", "--json"]
  ne_valued : ∀ name ∈ ["--help", "--policy", "--lenient", "--json"], ∀ value,
    x ≠ name ++ "=" ++ value

/-- It is enough that the name of the text is none of the names. -/
theorem isSource_of {x : String} (hseparator : x ≠ "--")
    (hname : (splitName x).1 ∉ ["-h", "--help", "--policy", "--lenient", "--json"]) :
    IsSource x := by
  have hnone : ∀ name ∈ ["-h", "--help", "--policy", "--lenient", "--json"],
      '=' ∉ name.toList := by
    decide
  have hsame : ∀ name ∈ ["-h", "--help", "--policy", "--lenient", "--json"],
      (splitName name).1 = name := by
    decide +kernel
  refine ⟨hseparator, fun hmem => hname ?_, fun name hmem value he => hname ?_⟩
  · rw [hsame x hmem]
    exact hmem
  · rw [he, splitName_append (hnone name (List.mem_cons_of_mem _ hmem)) value]
    exact List.mem_cons_of_mem _ hmem

theorem IsSource.isEquation {x : String} (h : IsSource x) : IsEquation .validate x := by
  refine isEquation_of h.ne_separator (fun entry hentry he => ?_) fun entry hentry hlong => ?_
  · exact h.ne_name (he ▸ (by decide : ∀ entry ∈ Flag.table (flags .validate),
      entry.1 ∈ ["-h", "--help", "--policy", "--lenient", "--json"]) entry hentry)
  · exact h.ne_valued _ ((by decide +kernel : ∀ entry ∈ Flag.table (flags .validate),
      isLong entry.1 = true → entry.1 ∈ ["--help", "--policy", "--lenient", "--json"])
        entry hentry hlong)

theorem IsSetting.fits {g : Given} (h : IsSetting g) : g.Fits .validate := by
  cases h with
  | lenient => exact ⟨by decide, rfl⟩
  | json => exact ⟨by decide, rfl⟩
  | policy h =>
    refine ⟨⟨by decide, rfl, _, classify_of_not_looksLikeFlag h⟩, ?_,
      classify_of_not_looksLikeFlag h⟩
    rintro rfl
    revert h
    decide +kernel
  | attached path => exact ⟨by decide, rfl, by decide +kernel⟩

theorem IsSetting.decide?_use [Machine] {g : Given} (h : IsSetting g) :
    decide? (some .validate) g.use = none := by
  cases h <;> rfl

/-- The uses of three equations. -/
def sourceUses (x y z : String) : List ArgumentUse :=
  [.word "x" (.text x), .word "y" (.text y), .word "z" (.text z)]

theorem sourceUses_places (x y z : String) :
    (⟨wordAt "x" (sourceUses x y z), wordAt "y" (sourceUses x y z), wordAt "z" (sourceUses x y z)⟩ :
      Triple Value) = ⟨.text x, .text y, .text z⟩ := rfl

/-- What a command line for a validation comes to. -/
theorem plan_validate [Machine] {x y z : String} (hx : IsSource x) (hy : IsSource y) (hz : IsSource z)
    {pieces : List (Given ⊕ String)} (hsettings : ∀ g ∈ givens pieces, IsSetting g)
    (hequations : equations pieces = [x, y, z]) :
    plan ("validate" :: arguments pieces) = .command .validate false
      ((givens pieces).map Given.use ++ sourceUses x y z) := by
  have h := @plan_of_fits .validate pieces _ rfl (fun g hg => (hsettings g hg).fits)
    (by simp [hequations, hx.isEquation, hy.isEquation, hz.isEquation]) (by rw [hequations]; rfl)
    fun g hg => (hsettings g hg).decide?_use
  rw [hequations] at h
  exact h

/-! ## What the settings say -/

section

variable {gs : List Given}

theorem valuesOf_policy (h : ∀ g ∈ gs, IsSetting g) (x y z : String) :
    valuesOf .policy (gs.map Given.use ++ sourceUses x y z) = gs.filterMap Given.path? := by
  induction gs with
  | nil => rfl
  | cons g rest ih =>
    obtain ⟨hg, hrest⟩ := List.forall_mem_cons.1 h
    cases hg with
    | lenient => exact ih hrest
    | json => exact ih hrest
    | policy => exact congrArg (_ :: ·) (ih hrest)
    | attached => exact congrArg (_ :: ·) (ih hrest)

theorem hasFlag_setting {f : Flag} {name : String} (hf : IsSetting (.bare f name))
    (h : ∀ g ∈ gs, IsSetting g) (x y z : String) :
    hasFlag f (gs.map Given.use ++ sourceUses x y z) = decide (.bare f name ∈ gs) := by
  induction gs with
  | nil => rfl
  | cons g rest ih =>
    obtain ⟨hg, hrest⟩ := List.forall_mem_cons.1 h
    have hrest := ih hrest
    cases hf <;> cases hg <;> simp_all [hasFlag, Given.use]

/-- Settings fill no places. -/
theorem wordAt_append (gs : List Given) (place : String) (words : List ArgumentUse) :
    wordAt place (gs.map Given.use ++ words) = wordAt place words := by
  induction gs with
  | nil => rfl
  | cons g rest ih => cases g <;> exact ih

end

/-! ## The policy and the report -/

/-- The policy, or the policy made lenient. -/
def ease (lenient : Bool) (p : ValidationPolicy) : ValidationPolicy :=
  if lenient then { p with strictGeometry := .bool false } else p

theorem nonempty_figures_ease {fields : Fields} {p : ValidationPolicy}
    (hp : ValidationPolicy.ofSettings fields = .ok p) (lenient : Bool) :
    Nonempty (ease lenient p).Figures := by
  obtain ⟨fig⟩ := ValidationPolicy.nonempty_figures hp
  cases lenient with
  | false => exact ⟨fig⟩
  | true => exact ⟨fig.withStrictness _⟩

theorem plain_strictGeometry_ease {n : Nat} {p : ValidationPolicy}
    (h : Json.Plain n p.strictGeometry) (lenient : Bool) :
    Json.Plain n (ease lenient p).strictGeometry := by
  cases lenient with
  | false => exact h
  | true => exact .bool false

section

variable [Machine]

/-- The policy that a path selects, if it selects one. -/
inductive Selects (read : String → Option ByteArray) : Option String → ValidationPolicy → Prop
  | default : Selects read none .default
  | empty : Selects read (some "") .default
  | file {path : String} {p : ValidationPolicy} (hne : path ≠ "")
      (hload : PolicyFile.load read path = .ok p) : Selects read (some path) p

theorem Selects.policyFor {read : String → Option ByteArray} {path? : Option String}
    {p : ValidationPolicy} (h : Selects read path? p) : policyFor read path? = .ok (.ok p) := by
  cases h with
  | default => rfl
  | empty => rfl
  | file hne hload => simp [Command.policyFor, Option.filter, hne, hload]

/-- A policy that is selected has been read from settings that JSON can say. -/
theorem Selects.exists_settings {read : String → Option ByteArray} {path? : Option String}
    {p : ValidationPolicy} (h : Selects read path? p) :
    ∃ fields : Fields, ValidationPolicy.ofSettings fields = .ok p ∧
      ∀ f ∈ fields, Json.Plain Machine.maxDepth f.2 := by
  cases h with
  | default => exact ⟨[], rfl, List.forall_mem_nil _⟩
  | empty => exact ⟨[], rfl, List.forall_mem_nil _⟩
  | file hne hload =>
    rw [PolicyFile.load] at hload
    split at hload
    · cases hload
    · rw [PolicyFile.ofBytes.eq_def] at hload
      split at hload
      · cases hload
      · split at hload
        · cases hload
        · obtain ⟨fields, hfields, hp⟩ := bind_eq_ok_iff.1 hload
          have hread := PolicyFile.settings_eq_ok_iff.1 hfields
          exact ⟨fields, mapError_eq_ok_iff.1 hp, (Json.plain_of_readWithin hread).of_mem_fields⟩

/-- Under a policy read from settings there is a verdict, if there is room for the points. -/
theorem exists_validate_ease {fields : Fields} {p : ValidationPolicy}
    (hp : ValidationPolicy.ofSettings fields = .ok p) (lenient : Bool) :
    ∃ n : Nat, (ease lenient p).geometrySamples = .int n ∧ (Machine.checkRoom n = .ok () →
      ∀ sources, ∃ v, SpaceCurve.validate sources (ease lenient p) = .ok v) := by
  obtain ⟨fig⟩ := nonempty_figures_ease hp lenient
  exact ⟨fig.samples.toNat, fig.geometrySamples_eq, exists_validate fig⟩

/-- With a policy, what is reported is the run under it. -/
theorem runValidate_of_policyFor {read : String → Option ByteArray} {uses : List ArgumentUse}
    {p : ValidationPolicy}
    (hp : policyFor read (valuesOf .policy uses).getLast? = .ok (.ok p)) :
    runValidate read false uses =
      ((Validation.run ⟨wordAt "x" uses, wordAt "y" uses, wordAt "z" uses⟩
        (ease (hasFlag .lenient uses) p)).map
          (report (hasFlag .json uses) (ease (hasFlag .lenient uses) p))).mapError .check := by
  have hrun : runValidate read false uses =
      ((Validation.run ⟨wordAt "x" uses, wordAt "y" uses, wordAt "z" uses⟩
        (ease (hasFlag .lenient uses) p)).mapError .check).bind fun r =>
          .ok (report (hasFlag .json uses) (ease (hasFlag .lenient uses) p) r) := by
    rw [runValidate, hp]
    rfl
  rw [hrun]
  cases Validation.run _ (ease _ p) <;> rfl

/-- Without a policy, the run ends with the outcome that says so, or with the fault. -/
theorem runValidate_of_outcome {read : String → Option ByteArray} {uses : List ArgumentUse}
    {outcome : Outcome}
    (h : policyFor read (valuesOf .policy uses).getLast? = .ok (.error outcome)) :
    runValidate read false uses = .ok outcome := by
  rw [runValidate, h]
  rfl

theorem runValidate_of_fault {read : String → Option ByteArray} {uses : List ArgumentUse}
    {fault : RunFault} (h : policyFor read (valuesOf .policy uses).getLast? = .error fault) :
    runValidate read false uses = .error fault := by
  rw [runValidate, h]
  rfl

/-- **It does not matter where the flags stand.**  Every interleaving of the same settings with the
same three equations has the same result.  If a policy is selected, and there is a verdict under it,
the result is that this verdict is reported.  There is a verdict wherever there is room for the
points of the curve. -/
theorem runLine_interleaved (read : String → Option ByteArray) {x y z : String} (hx : IsSource x)
    (hy : IsSource y) (hz : IsSource z) {gs : List Given} (hsettings : ∀ g ∈ gs, IsSetting g) :
    ∃ result,
      (∀ pieces, givens pieces = gs → equations pieces = [x, y, z] →
        runLine read ("validate" :: arguments pieces) = result) ∧
      ∀ p, Selects read (gs.filterMap Given.path?).getLast? p → ∃ q : ValidationPolicy,
        q = ease (.bare .lenient "--lenient" ∈ gs) p ∧
        (∀ v, SpaceCurve.validate ⟨.text x, .text y, .text z⟩ q = .ok v →
          ∃ o, result = .ok o ∧ (o.code = 0 ↔ v.isValid = true) ∧
            Reports (.bare .json "--json" ∈ gs) ⟨.text x, .text y, .text z⟩ q v o) ∧
        (∀ fault, SpaceCurve.validate ⟨.text x, .text y, .text z⟩ q = .error fault →
          result = .error (.check fault)) ∧
        ∃ n : Nat, q.geometrySamples = .int n ∧ (Machine.checkRoom n = .ok () →
          ∃ v, SpaceCurve.validate ⟨.text x, .text y, .text z⟩ q = .ok v) := by
  refine ⟨runValidate read false (gs.map Given.use ++ sourceUses x y z), ?_, fun p hp => ?_⟩
  · rintro pieces rfl hequations
    rw [runLine, plan_validate hx hy hz hsettings hequations]
    rfl
  · obtain ⟨fields, hfields, hplain⟩ := hp.exists_settings
    obtain ⟨n, hn, hroom⟩ := exists_validate_ease hfields (.bare .lenient "--lenient" ∈ gs)
    obtain ⟨fig⟩ := nonempty_figures_ease hfields (.bare .lenient "--lenient" ∈ gs)
    have hstrict := ValidationPolicy.plain_strictGeometry hplain hfields
    have hpolicy := hp.policyFor
    rw [← valuesOf_policy hsettings x y z] at hpolicy
    have hrun := runValidate_of_policyFor hpolicy
    rw [hasFlag_setting .lenient hsettings, hasFlag_setting .json hsettings, wordAt_append,
      wordAt_append, wordAt_append] at hrun
    refine ⟨_, rfl, fun v hv => ?_, fun fault hfault => ?_, n, hn, fun h => hroom h _⟩
    · obtain ⟨r, hr, rfl⟩ := map_eq_ok_iff.1 hv
      refine ⟨_, hrun.trans (by rw [sourceUses_places, hr]; rfl), ?_,
        reports_report fig (plain_strictGeometry_ease hstrict _) hr _⟩
      cases h : (r.verdict _).isValid <;> simp [report, h]
    · rw [hrun, sourceUses_places, map_eq_error_iff.1 hfault]
      rfl

end

/-- The default policy for a period without an end. -/
def endless : ValidationPolicy := { ValidationPolicy.default with period := .real (1.0 / 0.0) }

/-- A file with this policy, under every name. -/
def endlessFile : String → Option ByteArray := fun _ => some "\x7b\"period\": Infinity\x7d".toUTF8

/-- Equations that begin with one or two minus signs, and a path that begins with a minus sign.  The
first parameter value is zero times an infinity, and so is the first point of the curve. -/
theorem runLine_interleaved_minus :
    letI := Machine.ample
    (IsSource "-0*t" ∧ IsSource "--2000" ∧ IsSource "-1") ∧
      (∀ g ∈ [.bare .lenient "--lenient", .attached .policy "--policy" "-p"], IsSetting g) ∧
      ∃ v o, SpaceCurve.validate ⟨.text "-0*t", .text "--2000", .text "-1"⟩ (ease true endless) =
          .ok v ∧
        runLine endlessFile ["validate", "-0*t", "--lenient", "--policy=-p", "--2000", "-1"] =
          .ok o ∧
        o = ⟨0, false, "Status: warnings\n  warning: " ++ Check.failedText .magnitude ++ "\n",
          Machine.notice .invalid⟩ ∧
        v.isValid = true ∧
        Reports false ⟨.text "-0*t", .text "--2000", .text "-1"⟩ (ease true endless) v o := by
  let _ := Machine.ample
  have hx : IsSource "-0*t" := isSource_of (by decide) (by decide +kernel)
  have hy : IsSource "--2000" := isSource_of (by decide) (by decide +kernel)
  have hz : IsSource "-1" := isSource_of (by decide) (by decide +kernel)
  have hsettings : ∀ g ∈ [.bare .lenient "--lenient", .attached .policy "--policy" "-p"],
      IsSetting g := by
    simp [IsSetting.lenient, IsSetting.attached]
  have houtcome : (runLine endlessFile
      ["validate", "-0*t", "--lenient", "--policy=-p", "--2000", "-1"]).toOption =
        some ⟨0, false, "Status: warnings\n  warning: " ++ Check.failedText .magnitude ++ "\n",
          Machine.notice .invalid⟩ := by
    decide +kernel
  obtain ⟨result, hsame, hreport⟩ := runLine_interleaved endlessFile hx hy hz hsettings
  have hrun : runLine endlessFile
      ["validate", "-0*t", "--lenient", "--policy=-p", "--2000", "-1"] = result :=
    hsame [.inr "-0*t", .inl (.bare .lenient "--lenient"),
      .inl (.attached .policy "--policy" "-p"), .inr "--2000", .inr "-1"] rfl rfl
  obtain ⟨q, rfl, hok, -, n, hn, hexists⟩ := hreport endless (.file (by decide) rfl)
  obtain rfl : 10 = n := Int.ofNat.inj (Value.int.inj hn)
  obtain ⟨v, hv⟩ := hexists rfl
  obtain ⟨o, rfl, hcode, hreports⟩ := hok v hv
  rw [hrun] at houtcome
  obtain rfl := Option.some.inj houtcome
  exact ⟨⟨hx, hy, hz⟩, hsettings, v, _, hv, hrun, rfl, hcode.1 rfl, hreports⟩

end Command
end SpaceCurve
