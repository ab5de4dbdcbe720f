import SpaceCurve.Command.Run
import SpaceCurve.Proofs.JsonReading
import SpaceCurve.Proofs.Rewording
import SpaceCurve.Proofs.Verdicts

/-!
# What is written about a verdict

One would like to say of what a validation writes that it is the verdict in writing, but this says
no more than that the program writes what it writes.  So the lines are spelled out here, what is
written in JSON is what can be read out of it again, and what stands on standard error is said by
what the arithmetic comes to.

## What is here

* `PrintedLines` — a line for the status, and one for each finding.
* `PrintedJson` — a text that is read as a record of all that the verdict says.  It may be nested
  deeper than a policy file, since the policy's own idea of strictness goes into it.
* `Warns` — when the arithmetic on the points of the curve does not pass in silence.
* `Reports` — all that a validation leaves behind; `reports_report` says that it does, whatever the
  verdict.
-/

set_option autoImplicit false

namespace SpaceCurve

open Json (Plain)

/-! ## Lines of text -/

namespace Command

/-- The word for a verdict with such diagnostics and warnings. -/
inductive StatusWord : List Finding → List Finding → String → Prop
  | fail {diagnostics warnings : List Finding} (h : diagnostics ≠ []) :
      StatusWord diagnostics warnings "fail"
  | warnings {warnings : List Finding} (h : warnings ≠ []) : StatusWord [] warnings "warnings"
  | ok : StatusWord [] [] "ok"

theorem statusWord_status (v : Verdict) : StatusWord v.diagnostics v.warnings v.status := by
  obtain ⟨diagnostics, warnings, metadata⟩ := v
  cases diagnostics with
  | cons f rest => exact .fail (List.cons_ne_nil f rest)
  | nil =>
    cases warnings with
    | cons f rest => exact .warnings (List.cons_ne_nil f rest)
    | nil => exact .ok

/-- A line for the status of a verdict, one for each diagnostic and one for each warning. -/
def PrintedLines (v : Verdict) (out : String) : Prop :=
  ∃ (word : String) (errors warnings : List String),
    StatusWord v.diagnostics v.warnings word ∧
    v.diagnostics.map Finding.message = errors.map Value.text ∧
    v.warnings.map Finding.message = warnings.map Value.text ∧
    out = "Status: " ++ word ++ "\n" ++ String.join (errors.map fun m => "  error: " ++ m ++ "\n") ++
      String.join (warnings.map fun m => "  warning: " ++ m ++ "\n")

end Command

namespace Validation

theorem messages_map_finding (failures : List Failure) :
    (failures.map Failure.finding).map Finding.message =
      (failures.map Failure.message).map Value.text := by
  rw [List.map_map, List.map_map]
  rfl

end Validation

namespace Command

theorem linesText_append (lines others : List String) :
    linesText (lines ++ others) = linesText lines ++ linesText others := by
  rw [linesText, List.map_append, String.join_append]
  rfl

/-- The lines about findings have their messages. -/
theorem linesText_shown {findings : List Finding} {messages : List String} (start : String)
    (h : findings.map Finding.message = messages.map Value.text) :
    linesText (findings.map fun f => start ++ f.message.shown) =
      String.join (messages.map fun m => start ++ m ++ "\n") := by
  have hshown : findings.map (fun f => start ++ f.message.shown) =
      messages.map fun m => start ++ m := by
    have hmap := congrArg (List.map fun v : Value => start ++ v.shown) h
    rw [List.map_map, List.map_map] at hmap
    exact hmap
  rw [linesText, hshown, List.map_map]
  rfl

theorem printedLines_verdict (r : Validation.Run) (q : ValidationPolicy) :
    PrintedLines (r.verdict q) (linesText (verdictLines (r.verdict q))) := by
  have hdiagnostics : (r.verdict q).diagnostics.map Finding.message = _ :=
    Validation.messages_map_finding _
  have hwarnings : (r.verdict q).warnings.map Finding.message = _ :=
    Validation.messages_map_finding _
  refine ⟨_, _, _, statusWord_status _, hdiagnostics, hwarnings, ?_⟩
  have hfirst : ∀ line lines, linesText (line :: lines) = line ++ "\n" ++ linesText lines :=
    fun line lines => linesText_append [line] lines
  rw [verdictLines, linesText_append, hfirst, linesText_shown "  error: " hdiagnostics,
    linesText_shown "  warning: " hwarnings]

/-! ## JSON -/

/-- A finding as it is read from JSON. -/
def findingRecord (f : Finding) : Value :=
  .record [("message", f.message), ("axis", f.axis), ("kind", .text f.kind.name),
    ("check", f.check)]

/-- A record of all that a verdict says, with its status in a word. -/
def verdictRecord (word : String) (v : Verdict) : Value :=
  .record [("is_valid", .bool v.diagnostics.isEmpty), ("status", .text word),
    ("diagnostics", .list (v.diagnostics.map findingRecord)),
    ("warnings", .list (v.warnings.map findingRecord)), ("metadata", .record v.metadata)]

/-- A text in JSON, with an indent of two blanks, which is read as a record of the verdict.  The
three levels are those of a record of findings. -/
def PrintedJson [Machine] (v : Verdict) (out : String) : Prop :=
  ∃ word text, StatusWord v.diagnostics v.warnings word ∧ out = text ++ "\n" ∧
    text = Json.render (some "  ") (verdictRecord word v) ∧
    ∀ limit, Machine.maxDepth + 3 ≤ limit →
      Json.readWithin limit text = .ok (verdictRecord word v)

theorem plain_finding (f : Failure) : Plain 1 (findingRecord f.finding) := by
  have haxis : Plain 0 f.finding.axis := by
    obtain ⟨check, axis?, text⟩ := f
    cases axis? with
    | none => exact .null
    | some axis => exact .text axis.name
  have hnames : (["message", "axis", "kind", "check"] : List String).Nodup := by decide
  refine .record hnames ?_
  simpa [Failure.finding, Plain.text] using haxis

theorem plain_verdict {n : Nat} (r : Validation.Run) {q : ValidationPolicy}
    (hstrict : Plain n q.strictGeometry) (word : String) :
    Plain (n + 3) (verdictRecord word (r.verdict q)) := by
  have hfindings : ∀ failures : List Failure, Plain (n + 2)
      (.list ((failures.map Failure.finding).map findingRecord)) := fun failures => by
    refine .list fun v hv => ?_
    rw [List.map_map] at hv
    obtain ⟨f, -, rfl⟩ := List.mem_map.1 hv
    exact (plain_finding f).mono (by omega)
  have haxes : Plain (n + 1) (.list (r.parsedAxes.map fun axis => .text axis.name)) := by
    refine .list fun v hv => ?_
    obtain ⟨axis, -, rfl⟩ := List.mem_map.1 hv
    exact .text _
  have hmetadata : Plain (n + 2) (.record (r.verdict q).metadata) := by
    have hnames : (["parsed_axes", "geometry_checked", "strict_geometry"] : List String).Nodup := by
      decide
    refine .record hnames ?_
    simpa [Validation.Run.verdict, Validation.verdictOn, haxes, Plain.bool] using
      hstrict.mono (by omega)
  have hnames :
      (["is_valid", "status", "diagnostics", "warnings", "metadata"] : List String).Nodup := by
    decide
  refine .record hnames ?_
  simp only [List.forall_mem_cons]
  exact ⟨.bool _, .text _, hfindings _, hfindings _, hmetadata, List.forall_mem_nil _⟩

theorem printedJson_verdict [Machine] (r : Validation.Run) {q : ValidationPolicy}
    (hstrict : Plain Machine.maxDepth q.strictGeometry) :
    PrintedJson (r.verdict q) (linesText [(r.verdict q).toJson (some "  ")]) := by
  have hblank : Json.Blank (some "  ") := by
    intro unit hunit c hc
    obtain rfl : "  " = unit := Option.some.inj hunit
    obtain rfl : c = ' ' := by simpa using hc
    rfl
  refine ⟨(r.verdict q).status, _, statusWord_status _, ?_, rfl, fun limit hlimit => ?_⟩
  · simp [linesText]
    rfl
  · exact Json.readWithin_render ((plain_verdict r hstrict _).mono hlimit) hblank

end Command

/-! ## Warnings -/

/-- Some coordinate of a point is too far from that of the first point. -/
theorem Spread.overflows_iff {points : Grid Float} :
    Spread.overflows points = true ↔ ∃ (first row : List Float) (i : Nat) (a b : Float),
      points.rows.head? = some first ∧ row ∈ points.rows ∧ row[i]? = some a ∧
        first[i]? = some b ∧ Spread.exceeds a b = true := by
  rw [Spread.overflows]
  split
  · next hnil => simp [hnil]
  · next first rest hrows =>
    simp only [List.any_eq_true, id_eq, exists_eq_right, List.mem_iff_getElem?,
      List.getElem?_zipWith_eq_some, hrows, List.head?_cons, Option.some.injEq]
    constructor
    · rintro ⟨row, hrow, i, a, b, ha, hb, hexceeds⟩
      exact ⟨first, row, i, a, b, rfl, hrow, ha, hb, hexceeds⟩
    · rintro ⟨_, row, i, a, b, rfl, hrow, ha, hb, hexceeds⟩
      exact ⟨row, hrow, i, a, b, ha, hb, hexceeds⟩

theorem Sampling.isEndless_real (x : Float) : Sampling.isEndless (.real x) = x.isInf :=
  Bool.or_false _

namespace Validation

/-- When the arithmetic on the points of the curve does not pass in silence: an infinite period is
cut into segments, and the first one begins at zero times an infinity; or some coordinate of a point
is too far from that of the first point for a float. -/
inductive Warns [Machine] (sources : Triple Value) (q : ValidationPolicy) : FloatWarning → Prop
  | invalid {c : Curve} {period : Float} (due : JointDue sources q c)
      (period_eq : q.period = .real period) (infinite : period.isInf = true) :
      Warns sources q .invalid
  | overflow {c : Curve} {points : Grid Float} {first row : List Float} {i : Nat} {a b : Float}
      (due : JointDue sources q c) (points_eq : c.sample (samplingPolicy q) = .ok points)
      (first_eq : points.rows.head? = some first) (mem_rows : row ∈ points.rows)
      (row_eq : row[i]? = some a) (first_row_eq : first[i]? = some b)
      (finite : a.isFinite = true ∧ b.isFinite = true) (infinite : (a - b).isInf = true) :
      Warns sources q .overflow

theorem warnings_append (events later : List Event) :
    Event.warnings (events ++ later) = Event.warnings events ++ Event.warnings later :=
  List.filterMap_append

theorem warnings_map_failed (fail : Axis → Failure) (axes : List Axis) :
    Event.warnings (axes.map fun axis => .failed (fail axis)) = [] := by
  refine List.filterMap_eq_nil_iff.2 fun e he => ?_
  obtain ⟨axis, -, rfl⟩ := List.mem_map.1 he
  rfl

/-- The stages before the last one pass in silence. -/
theorem warnings_sourceEvents (sources : Triple Value) :
    Event.warnings (sourceEvents sources) = [] := by
  have hparse : Event.warnings ((balanced sources).flatMap (parseEvents sources)) = [] := by
    refine List.filterMap_eq_nil_iff.2 fun e he => ?_
    obtain ⟨axis, -, he⟩ := List.mem_flatMap.1 he
    rw [parseEvents] at he
    split at he
    · cases he
    · rcases List.mem_pair.1 he with rfl | rfl <;> rfl
  rw [sourceEvents, warnings_append, warnings_append, warnings_map_failed, warnings_map_failed,
    hparse]
  rfl

/-- Two warnings may be given, each for its own reason. -/
theorem mem_jointWarnings {endless overflows : Bool} {w : FloatWarning} :
    w ∈ jointWarnings endless overflows ↔
      w = .invalid ∧ endless = true ∨ w = .overflow ∧ overflows = true := by
  cases endless <;> cases overflows <;> cases w <;> simp [jointWarnings]

variable [Machine] {sources : Triple Value} {q : ValidationPolicy} {r : Run}

/-- The warnings of a run are those of its last stage. -/
theorem exists_jointEvents_of_run (fig : q.Figures) (h : run sources q = .ok r) :
    ∃ (curve? : Option Curve) (events : List Event), (∀ c, curve? = some c ↔ JointDue sources q c) ∧
      jointEvents q curve? = .ok events ∧ Event.warnings r.events = Event.warnings events := by
  obtain ⟨broken, hbroken, hlists⟩ := exists_broken fig sources
  obtain ⟨unclosed, hunclosed, -⟩ := exists_unclosed fig sources
  rw [run_eq hbroken hunclosed] at h
  obtain ⟨events, hevents, rfl⟩ := map_eq_ok_iff.1 h
  refine ⟨_, events, fun c => geometryCurve?_eq_some_iff hlists, hevents, ?_⟩
  simp only [warnings_append, warnings_sourceEvents, warnings_map_failed, List.nil_append]

/-- **What the arithmetic warns of**, in this order. -/
theorem warnings_of_run (fig : q.Figures) (h : run sources q = .ok r) :
    (Event.warnings r.events).Sublist [.invalid, .overflow] ∧
      ∀ w, w ∈ Event.warnings r.events ↔ Warns sources q w := by
  obtain ⟨curve?, events, hcurve, hevents, hwarnings⟩ := exists_jointEvents_of_run fig h
  rw [hwarnings]
  cases curve? with
  | none =>
    cases hevents
    refine ⟨List.nil_sublist _, fun w => iff_of_false List.not_mem_nil fun hw => ?_⟩
    cases hw with
    | invalid due => cases (hcurve _).2 due
    | overflow due => cases (hcurve _).2 due
  | some c =>
    have hdue := (hcurve c).1 rfl
    obtain ⟨points, -, -, hpoints, -, -, -, hjoint⟩ := exists_of_geometryEvents hevents
    rw [fig.period_eq, Sampling.isEndless_real] at hjoint
    rw [hjoint]
    refine ⟨?_, fun w => ?_⟩
    · cases fig.period.isInf <;> cases Spread.overflows points <;> simp [jointWarnings]
    rw [mem_jointWarnings]
    constructor
    · rintro (⟨rfl, hinf⟩ | ⟨rfl, hoverflows⟩)
      · exact .invalid hdue fig.period_eq hinf
      · obtain ⟨first, row, i, a, b, hfirst, hrow, ha, hb, hexceeds⟩ :=
          Spread.overflows_iff.1 hoverflows
        obtain ⟨hfinite, hinf⟩ := Bool.and_eq_true_iff.1 hexceeds
        exact .overflow hdue hpoints hfirst hrow ha hb (Bool.and_eq_true_iff.1 hfinite) hinf
    · intro hw
      cases hw with
      | invalid due period_eq infinite =>
        obtain rfl := Value.real.inj (period_eq.symm.trans fig.period_eq)
        exact .inl ⟨rfl, infinite⟩
      | overflow due points_eq first_eq mem_rows row_eq first_row_eq finite infinite =>
        obtain rfl := Option.some.inj ((hcurve _).2 due)
        obtain rfl := Except.ok.inj (hpoints.symm.trans points_eq)
        refine .inr ⟨rfl, Spread.overflows_iff.2 ⟨_, _, _, _, _, first_eq, mem_rows, row_eq,
          first_row_eq, ?_⟩⟩
        simp [Spread.exceeds, finite, infinite]

end Validation

theorem Log.ofRun_silent [Machine] (events : List Event) (v : Verdict) :
    Log.ofRun false events v = String.join ((Event.warnings events).map Machine.notice) := by
  have hshown : (events.filter (Log.isShown false)).map Log.ofEvent =
      (Event.warnings events).map Machine.notice := by
    induction events with
    | nil => rfl
    | cons e rest ih =>
      cases e with
      | warned w => exact congrArg (Machine.notice w :: ·) ih
      | _ => exact ih
  rw [Log.ofRun, hshown]
  exact String.append_empty

/-! ## All that is left behind -/

namespace Command

variable [Machine]

/-- What a validation leaves behind: it has not been cut short by its arguments, its status is zero
just if the verdict is valid, the verdict is printed, and nothing but the warnings is written to
standard error. -/
structure Reports (json : Bool) (sources : Triple Value) (q : ValidationPolicy) (v : Verdict)
    (o : Outcome) : Prop where
  exited_eq : o.exited = false
  code_eq : o.code = if v.diagnostics.isEmpty then 0 else 1
  printed : if json then PrintedJson v o.stdout else PrintedLines v o.stdout
  warned : ∃ ws : List FloatWarning, ws.Sublist [.invalid, .overflow] ∧
    (∀ w, w ∈ ws ↔ Validation.Warns sources q w) ∧
    o.stderr = String.join (ws.map Machine.notice)

/-- What is reported about a run, in lines of text or as JSON. -/
def report (json : Bool) (q : ValidationPolicy) (r : Validation.Run) : Outcome where
  code := if (r.verdict q).isValid then 0 else 1
  exited := false
  stdout := linesText
    (if json then [(r.verdict q).toJson (some "  ")] else verdictLines (r.verdict q))
  stderr := Log.ofRun false r.events (r.verdict q)

/-- **The report on a run reports its verdict**, if JSON can say how strict the policy is. -/
theorem reports_report {sources : Triple Value} {q : ValidationPolicy} {r : Validation.Run}
    (fig : q.Figures) (hstrict : Plain Machine.maxDepth q.strictGeometry)
    (hr : Validation.run sources q = .ok r) (json : Bool) :
    Reports json sources q (r.verdict q) (report json q r) where
  exited_eq := rfl
  code_eq := rfl
  printed := by
    cases json with
    | false => exact printedLines_verdict r q
    | true => exact printedJson_verdict r hstrict
  warned := by
    obtain ⟨hsublist, hmem⟩ := Validation.warnings_of_run fig hr
    exact ⟨_, hsublist, hmem, Log.ofRun_silent r.events _⟩

end Command

/-! ## How strict a policy is -/

theorem Fields.exists_of_get? {fields : Fields} {name : String} {v : Value}
    (h : fields.get? name = some v) : ∃ f ∈ fields, f.2 = v := by
  induction fields with
  | nil => cases h
  | cons f rest ih =>
    rw [Fields.get?_cons] at h
    split at h
    · exact ⟨f, List.mem_cons_self, Option.some.inj h⟩
    · obtain ⟨g, hg, hv⟩ := ih h
      exact ⟨g, List.mem_cons_of_mem f hg, hv⟩

/-- What settings say under a name is one of their values. -/
theorem Settings.exists_of_stated {aliases : List Settings.Alias} {fields : Fields} {name : String}
    {v : Value} (h : Settings.stated aliases fields name = some v) : ∃ f ∈ fields, f.2 = v := by
  rcases Option.or_eq_some_iff.1 h with hcurrent | ⟨-, hlegacy⟩
  · exact Fields.exists_of_get? hcurrent
  · obtain ⟨a, -, ha⟩ := List.exists_of_findSome?_eq_some hlegacy
    exact Fields.exists_of_get? ha

/-- What JSON can say of settings it can say of the strictness that is read from them. -/
theorem ValidationPolicy.plain_strictGeometry {n : Nat} {fields : Fields} {p : ValidationPolicy}
    (h : ∀ f ∈ fields, Plain n f.2) (hp : ValidationPolicy.ofSettings fields = .ok p) :
    Plain n p.strictGeometry := by
  obtain ⟨hconvert, -⟩ := convert_of_ofSettings hp
  have hvalue : p.strictGeometry =
      ((understood fields).get? "strict_geometry").getD (.bool true) := by
    obtain ⟨_, -, hrest⟩ := bind_eq_ok_iff.1 hconvert
    obtain ⟨_, -, hrest⟩ := bind_eq_ok_iff.1 hrest
    obtain ⟨_, -, hrest⟩ := bind_eq_ok_iff.1 hrest
    obtain ⟨_, -, hrest⟩ := bind_eq_ok_iff.1 hrest
    obtain ⟨_, -, hrest⟩ := bind_eq_ok_iff.1 hrest
    obtain ⟨_, -, hrest⟩ := bind_eq_ok_iff.1 hrest
    cases hrest
    rfl
  rw [hvalue, get?_understood, if_pos (by decide)]
  cases hstated : Settings.stated aliases fields "strict_geometry" with
  | none => exact .bool true
  | some v =>
    obtain ⟨f, hf, rfl⟩ := Settings.exists_of_stated hstated
    exact h f hf

end SpaceCurve
