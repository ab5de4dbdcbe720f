import SpaceCurve.Policy.Validation
import SpaceCurve.Proofs.Records

/-!
# Settings that say the same

Settings are written by hand, in any order, with older names and with names that mean nothing.  What
is read from them is `understood`: the values that they state under the current names.  Everything
else about the way they are written is lost before the first value is converted, so it cannot show
in the policy, and in an error neither: which setting is complained about first, and in which order
the complaints come, is up to the names.

An older name counts only where the current one is absent.  So a value may move to an older name
just if that is free, and beside the current name an older one may hold whatever it likes.

## What is here

* `get?_understood` — what is read under a name is what the settings state there.
* `ofSettings_congr` — settings that state the same make the same policy, or fail in the same way.
* `Rewording` — the ways to write the same settings differently, one at a time;
  `Rewording.stated_eq` is the step and `Rewording.run` the run.
-/

set_option autoImplicit false

namespace SpaceCurve
namespace ValidationPolicy

open Settings Fields

variable {fields others : Fields} {name : String}

/-! ## What is read -/

/-- The settings that are converted: under their current names, without what means nothing. -/
def understood (fields : Fields) : Fields := keep names (renameAll aliases fields)

theorem isLegible_aliases : IsLegible aliases := ⟨by decide, by decide⟩

/-- An older name is no name of a setting. -/
theorem legacy_not_mem_names : ∀ a ∈ aliases, a.legacy ∉ names := by decide

theorem ne_legacy_of_mem (h : name ∈ names) {a : Alias} (ha : a ∈ aliases) : name ≠ a.legacy :=
  fun heq => legacy_not_mem_names a ha (heq ▸ h)

theorem get?_understood (fields : Fields) (name : String) :
    (understood fields).get? name = if name ∈ names then stated aliases fields name else none := by
  rw [understood]
  split
  · next h =>
    rw [get?_keep h, get?_renameAll isLegible_aliases fields fun a ha => ne_legacy_of_mem h ha]
  · next h => exact get?_keep_of_not_mem h _

/-- Nothing but the values under the names is converted. -/
theorem convert_congr (h : ∀ name ∈ names, fields.get? name = others.get? name) :
    convert fields = convert others := by
  have hconvert : ∀ name ∈ names, ∀ default conversion,
      Settings.convert fields name default conversion =
        Settings.convert others name default conversion := fun name hname default conversion => by
    rw [Settings.convert, Settings.convert, h name hname]
  simp only [ValidationPolicy.convert]
  rw [hconvert "sample_points" (by decide), hconvert "period" (by decide),
    hconvert "periodicity_tolerance" (by decide), hconvert "degeneracy_tolerance" (by decide),
    hconvert "max_magnitude" (by decide), hconvert "geometry_samples" (by decide),
    h "check_periodicity" (by decide), h "check_geometry" (by decide),
    h "strict_geometry" (by decide)]

theorem understood_congr
    (h : ∀ name ∈ names, stated aliases fields name = stated aliases others name) (name : String) :
    (understood fields).get? name = (understood others).get? name := by
  rw [get?_understood, get?_understood]
  split
  · next hname => exact h name hname
  · rfl

/-- Settings that state the same make the same policy, or fail in the same way. -/
theorem ofSettings_congr
    (h : ∀ name ∈ names, stated aliases fields name = stated aliases others name) :
    ofSettings fields = ofSettings others := by
  have hconvert : convert (understood fields) = convert (understood others) :=
    convert_congr fun name _ => understood_congr h name
  simp only [understood] at hconvert
  simp only [ofSettings, hconvert]

/-! ## Writing the same settings differently -/

/-- A name that means nothing: neither the current nor an older name of a setting. -/
def IsForeign (name : String) : Prop := name ∉ names ∧ ∀ a ∈ aliases, a.legacy ≠ name

/-- One way to write the same settings differently. -/
inductive Rewording : Fields → Fields → Prop
  /-- The settings are given in another order. -/
  | permute {fields others : Fields} (h : fields.Perm others) : Rewording fields others
  /-- Something is added that means nothing. -/
  | add {fields : Fields} {name : String} (v : Value) (h : IsForeign name) :
    Rewording fields (fields.set name v)
  /-- Something that means nothing is removed. -/
  | remove {fields : Fields} {name : String} (h : IsForeign name) :
    Rewording fields (fields.erase name)
  /-- A setting is given under its older name, which is free. -/
  | rename {fields : Fields} {a : Alias} {v : Value} (ha : a ∈ aliases)
      (hv : fields.get? a.canonical = some v) (hfree : fields.has a.legacy = false) :
    Rewording fields ((fields.erase a.canonical).set a.legacy v)
  /-- The older name of a setting is given any value beside the current one. -/
  | shadow {fields : Fields} {a : Alias} (v : Value) (ha : a ∈ aliases)
      (h : fields.has a.canonical = true) :
    Rewording fields (fields.set a.legacy v)

/-- An older name belongs to one setting. -/
theorem eq_of_legacy : ∀ a ∈ aliases, ∀ b ∈ aliases, a.legacy = b.legacy → a = b := by decide

/-- A setting with an older name states what is under either name. -/
theorem stated_canonical {a : Alias} (ha : a ∈ aliases) (fields : Fields) :
    stated aliases fields a.canonical =
      (fields.get? a.canonical).or (fields.get? a.legacy) := by
  have halone : ∀ a ∈ aliases, aliases.filter (·.canonical == a.canonical) = [a] := by decide
  rw [stated, halone a ha, List.findSome?_singleton]

/-- What settings state depends on what is under the name and under its older names. -/
theorem stated_congr (hname : fields.get? name = others.get? name)
    (holder : ∀ a ∈ aliases, a.canonical = name → fields.get? a.legacy = others.get? a.legacy) :
    stated aliases fields name = stated aliases others name := by
  rw [stated, stated, hname, findSome?_congr fun a ha => holder a (List.mem_of_mem_filter ha)
    (beq_iff_eq.1 (List.mem_filter.1 ha).2)]

/-- A change under some names cannot be seen in a setting that has none of them. -/
theorem stated_of_frame (changed : List String)
    (hframe : ∀ name ∉ changed, others.get? name = fields.get? name) (hname : name ∉ changed)
    (holder : ∀ a ∈ aliases, a.canonical = name → a.legacy ∉ changed) :
    stated aliases others name = stated aliases fields name :=
  stated_congr (hframe name hname) fun a ha heq => hframe a.legacy (holder a ha heq)

/-- A change under a name that means nothing cannot be seen. -/
theorem stated_of_foreign {foreign : String} (hforeign : IsForeign foreign)
    (hframe : ∀ name, name ≠ foreign → others.get? name = fields.get? name)
    (hmem : name ∈ names) : stated aliases others name = stated aliases fields name := by
  refine stated_of_frame [foreign] (fun name hne => hframe name fun heq => hne ?_)
    (fun hin => ?_) fun a ha _ hin => hforeign.2 a ha (List.mem_singleton.1 hin)
  · exact List.mem_singleton.2 heq
  · exact hforeign.1 (List.mem_singleton.1 hin ▸ hmem)

/-- A change under the two names of one setting can be seen in that setting only. -/
theorem stated_of_alias {a : Alias} (ha : a ∈ aliases)
    (hframe : ∀ name, name ≠ a.canonical → name ≠ a.legacy → others.get? name = fields.get? name)
    (hmem : name ∈ names) (hne : name ≠ a.canonical) :
    stated aliases others name = stated aliases fields name := by
  refine stated_of_frame [a.canonical, a.legacy] (fun name hnot => ?_) ?_ fun b hb heq => ?_
  · exact hframe name (fun heq => hnot (by simp [heq])) fun heq => hnot (by simp [heq])
  · simp [hne, ne_legacy_of_mem hmem ha]
  · subst heq
    have hcanonical : b.legacy ≠ a.canonical := isLegible_aliases.ne b hb a ha
    have hlegacy : b.legacy ≠ a.legacy := fun heq =>
      hne (congrArg Alias.canonical (eq_of_legacy b hb a ha heq))
    simp [hcanonical, hlegacy]

namespace Rewording

/-- The step: each name keeps the value that is stated there. -/
theorem stated_eq (h : Rewording fields others) (hdistinct : fields.Distinct)
    (hmem : name ∈ names) : stated aliases others name = stated aliases fields name := by
  cases h with
  | permute hperm =>
    exact stated_congr (get?_of_perm hperm hdistinct name).symm
      fun a _ _ => (get?_of_perm hperm hdistinct a.legacy).symm
  | add v hforeign =>
    exact stated_of_foreign hforeign (fun name hne => by rw [get?_set, if_neg hne]) hmem
  | remove hforeign =>
    exact stated_of_foreign hforeign (fun name hne => by rw [get?_erase, if_neg hne]) hmem
  | @rename a v ha hv hfree =>
    have hnames : a.canonical ≠ a.legacy := (isLegible_aliases.ne a ha a ha).symm
    by_cases hname : name = a.canonical
    · -- the value has moved to the older name, which counts now
      subst hname
      rw [stated_canonical ha, stated_canonical ha, get?_set, if_neg hnames, get?_erase,
        if_pos rfl, get?_set, if_pos rfl, hv]
      rfl
    · exact stated_of_alias ha (fun name hcanonical hlegacy => by
        rw [get?_set, if_neg hlegacy, get?_erase, if_neg hcanonical]) hmem hname
  | @shadow a v ha hhas =>
    have hnames : a.canonical ≠ a.legacy := (isLegible_aliases.ne a ha a ha).symm
    by_cases hname : name = a.canonical
    · -- the older name does not count beside the current one
      obtain ⟨w, hw⟩ := has_eq_true_iff.1 hhas
      subst hname
      rw [stated_canonical ha, stated_canonical ha, get?_set, if_neg hnames, hw]
      rfl
    · exact stated_of_alias ha (fun name _ hlegacy => by
        rw [get?_set, if_neg hlegacy]) hmem hname

/-- However settings are reworded, each name stands once. -/
theorem distinct (h : Rewording fields others) (hdistinct : fields.Distinct) :
    others.Distinct := by
  cases h with
  | permute hperm => exact hdistinct.of_perm hperm
  | add v _ => exact hdistinct.set _ v
  | remove _ => exact hdistinct.erase _
  | @rename _ v _ _ _ => exact (hdistinct.erase _).set _ v
  | shadow v _ _ => exact hdistinct.set _ v

/-- The run: settings that are reworded again and again state what they did. -/
theorem run (h : Relation.ReflTransGen Rewording fields others) (hdistinct : fields.Distinct) :
    others.Distinct ∧ ∀ name ∈ names, stated aliases others name = stated aliases fields name := by
  induction h with
  | refl => exact ⟨hdistinct, fun _ _ => rfl⟩
  | tail _ hstep ih =>
    obtain ⟨hd, hstated⟩ := ih
    exact ⟨hstep.distinct hd, fun name hname =>
      (hstep.stated_eq hd hname).trans (hstated name hname)⟩

end Rewording

/-- **Reading settings depends only on what they state.**  Settings that state the same under each
name are read alike.  That is so for settings reworded in any of the ways, as often as one likes:
what is converted is the same under each name, and the outcome is the same, be it the policy, a
value that cannot be used, or the complaints with their order and their texts. -/
theorem ofSettings_reworded :
    (∀ fields others : Fields,
      (∀ name ∈ names, stated aliases fields name = stated aliases others name) →
        ofSettings others = ofSettings fields) ∧
    ∀ fields others : Fields, fields.Distinct → Relation.ReflTransGen Rewording fields others →
      (∀ name, (understood others).get? name = (understood fields).get? name) ∧
        ofSettings others = ofSettings fields := by
  refine ⟨fun fields others h => (ofSettings_congr h).symm, fun fields others hdistinct h => ?_⟩
  obtain ⟨-, hstated⟩ := Rewording.run h hdistinct
  exact ⟨understood_congr hstated, ofSettings_congr hstated⟩

/-- Settings with two values out of range. -/
def outOfRange : Fields :=
  [("colour", .text "red"), ("max_magnitude", .int 0), ("periodicity_tolerance", .int (-1))]

/-- They are reworded: the colour goes, the largest magnitude gets its older name, the tolerance
gets one beside its own, and the order is turned round.  The outcome is the same. -/
theorem ofSettings_reworded_outOfRange :
    Relation.ReflTransGen Rewording outOfRange
      [("tolerance", .text "none"), ("max_value", .int 0), ("periodicity_tolerance", .int (-1))] ∧
    ofSettings
      [("tolerance", .text "none"), ("max_value", .int 0), ("periodicity_tolerance", .int (-1))] =
        ofSettings outOfRange := by
  have hforeign : IsForeign "colour" := ⟨by decide, by decide⟩
  have hrun : Relation.ReflTransGen Rewording outOfRange
      [("tolerance", .text "none"), ("max_value", .int 0), ("periodicity_tolerance", .int (-1))] :=
    .head (.remove hforeign) <|
    .head (.rename (a := ⟨"max_value", "max_magnitude"⟩) (v := .int 0) (by decide) rfl rfl) <|
    .head (.shadow (a := ⟨"tolerance", "periodicity_tolerance"⟩) (.text "none") (by decide) rfl) <|
    .single (.permute (List.reverse_perm _).symm)
  exact ⟨hrun, (ofSettings_reworded.2 outOfRange _ (by decide) hrun).2⟩

end ValidationPolicy
end SpaceCurve
