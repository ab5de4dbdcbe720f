import SpaceCurve.Policy.Settings
import SpaceCurve.Proofs.Outcome

/-!
# Laws of records

A record is a list of named values in which each name stands once.  What can be seen of it is what
it has under each name: for everything that is done to records there is one law here that says what
the result has under every name, so that later proofs never look at the lists.  The order of the
fields can be seen only where a name stands twice, and `Distinct` excludes that.

## What is here

* `Fields.get?_append`, `get?_filter`, `get?_erase`, `get?_set` — what is under a name after each
  operation; `get?_of_perm` for a change of the order.
* `Fields.Distinct` — each name stands once; every operation keeps it.
* `Settings.get?_rename` — moving a value from an older name to the current one, and
  `get?_renameAll` for a table of aliases that `IsLegible`: no name in it is older twice, or both
  older and current.  What comes out under a name is what settings `stated` there.
-/

set_option autoImplicit false

namespace SpaceCurve
namespace Fields

variable {fields others : Fields} {name other : String} {v : Value}

/-! ## What is under a name -/

theorem get?_cons (f : String × Value) (fields : Fields) (name : String) :
    get? (f :: fields) name = if name = f.1 then some f.2 else fields.get? name := by
  by_cases h : name = f.1
  · subst h
    simp [get?, List.lookup]
  · have hne : (name == f.1) = false := beq_false_of_ne h
    simp [get?, List.lookup, hne, h]

theorem get?_singleton (other : String) (v : Value) (name : String) :
    get? [(other, v)] name = if name = other then some v else none :=
  get?_cons (other, v) [] name

theorem has_eq_isSome (fields : Fields) (name : String) :
    fields.has name = (fields.get? name).isSome := by
  induction fields with
  | nil => rfl
  | cons f rest ih =>
    rw [get?_cons, has, List.any_cons]
    by_cases h : name = f.1
    · simp [h]
    · rw [if_neg h, ← ih, has]
      simp [Ne.symm h]

theorem has_eq_false_iff : fields.has name = false ↔ fields.get? name = none := by
  rw [has_eq_isSome, Option.isSome_eq_false_iff, Option.isNone_iff_eq_none]

theorem has_eq_true_iff : fields.has name = true ↔ ∃ v, fields.get? name = some v := by
  rw [has_eq_isSome, Option.isSome_iff_exists]

theorem get?_append (fields others : Fields) (name : String) :
    get? (fields ++ others) name = (fields.get? name).or (others.get? name) :=
  List.lookup_append

/-- Leaving out fields by their names leaves the others as they are. -/
theorem get?_filter (keeps : String → Bool) (fields : Fields) (name : String) :
    get? (fields.filter fun f => keeps f.1) name =
      if keeps name then fields.get? name else none := by
  induction fields with
  | nil => simp [get?]
  | cons f rest ih =>
    rw [List.filter_cons, get?_cons]
    by_cases h : name = f.1
    · subst h
      cases hkeeps : keeps f.1 <;> simp [hkeeps, get?_cons, ih]
    · cases hkeeps : keeps f.1 <;> simp [h, get?_cons, ih]

theorem get?_erase (fields : Fields) (other name : String) :
    (fields.erase other).get? name = if name = other then none else fields.get? name := by
  rw [erase, get?_filter (· != other)]
  by_cases h : name = other <;> simp [h]

/-- A value stored in the place of the old one. -/
theorem get?_replace (fields : Fields) (other : String) (v : Value) (name : String) :
    get? (fields.map fun f => if f.1 == other then (other, v) else f) name =
      if name = other then (fields.get? other).map fun _ => v else fields.get? name := by
  induction fields with
  | nil => simp [get?]
  | cons f rest ih =>
    rw [List.map_cons, get?_cons, ih, get?_cons, get?_cons]
    by_cases hf : f.1 = other
    · by_cases h : name = other <;> simp [hf, h]
    · by_cases h : name = other
      · simp [h, hf, Ne.symm hf]
      · simp [h, hf]

theorem get?_set (fields : Fields) (other : String) (v : Value) (name : String) :
    (fields.set other v).get? name = if name = other then some v else fields.get? name := by
  rw [set]
  split
  · next hhas =>
    obtain ⟨w, hw⟩ := has_eq_true_iff.1 hhas
    rw [get?_replace, hw]
    rfl
  · next hhas =>
    have hnone : fields.get? other = none := has_eq_false_iff.1 (Bool.eq_false_iff.2 hhas)
    rw [get?_append, get?_singleton]
    by_cases h : name = other <;> simp [h, hnone]

/-! ## Records in which each name stands once -/

/-- Each name stands once. -/
def Distinct (fields : Fields) : Prop := (fields.map Prod.fst).Nodup

instance (fields : Fields) : Decidable fields.Distinct :=
  inferInstanceAs (Decidable (fields.map Prod.fst).Nodup)

theorem not_mem_names_of_has (h : fields.has name = false) : name ∉ fields.map Prod.fst := by
  intro hmem
  obtain ⟨f, hf, rfl⟩ := List.mem_map.1 hmem
  simpa using List.any_eq_false.1 h f hf

theorem Distinct.of_perm (h : fields.Distinct) (hperm : fields.Perm others) : others.Distinct :=
  (hperm.map Prod.fst).nodup_iff.1 h

theorem Distinct.erase (h : fields.Distinct) (name : String) : (fields.erase name).Distinct :=
  List.Nodup.sublist (List.filter_sublist.map _) h

theorem Distinct.set (h : fields.Distinct) (name : String) (v : Value) :
    (fields.set name v).Distinct := by
  rw [Fields.set]
  split
  · have hnames : (fields.map fun f => if f.1 == name then (name, v) else f).map Prod.fst =
        fields.map Prod.fst := by
      rw [List.map_map]
      refine List.map_congr_left fun f _ => ?_
      by_cases hf : f.1 = name <;> simp [hf]
    rw [Distinct, hnames]
    exact h
  · next hhas =>
    have hnew := not_mem_names_of_has (Bool.eq_false_iff.2 hhas)
    rw [Distinct, List.map_append]
    exact List.Nodup.append h (List.nodup_singleton name) (by simpa using hnew)

/-- The order of the fields cannot be seen. -/
theorem get?_of_perm (hperm : fields.Perm others) (hdistinct : fields.Distinct) (name : String) :
    fields.get? name = others.get? name := by
  induction hperm with
  | nil => rfl
  | cons f _ ih => rw [get?_cons, get?_cons, ih (List.nodup_cons.1 hdistinct).2]
  | swap f g rest =>
    have hne : f.1 ≠ g.1 := fun h => (List.nodup_cons.1 hdistinct).1 (by simp [h])
    simp only [get?_cons]
    by_cases hf : name = f.1
    · simp [hf, hne]
    · simp [hf]
  | trans h _ ih ih' => exact (ih hdistinct).trans (ih' (Distinct.of_perm hdistinct h))

end Fields

namespace Settings

open Fields

variable {aliases : List Alias} {a : Alias} {fields : Fields} {names : List String} {name : String}

theorem get?_keep (h : name ∈ names) (fields : Fields) :
    (keep names fields).get? name = fields.get? name := by
  rw [keep, get?_filter fun name => names.contains name, if_pos (List.contains_iff_mem.2 h)]

theorem get?_keep_of_not_mem (h : name ∉ names) (fields : Fields) :
    (keep names fields).get? name = none := by
  rw [keep, get?_filter fun name => names.contains name,
    if_neg fun hmem => h (List.contains_iff_mem.1 hmem)]

/-! ## Older names -/

/-- Moving a value to the current name adds it there if there is none, and leaves everything alone
that has neither name. -/
theorem get?_rename (a : Alias) (fields : Fields) (hname : name ≠ a.legacy) :
    (rename fields a).get? name =
      if name = a.canonical then (fields.get? name).or (fields.get? a.legacy)
      else fields.get? name := by
  rw [rename]
  split
  · next v hv =>
    split
    · next hhas =>
      obtain ⟨w, hw⟩ := has_eq_true_iff.1 hhas
      by_cases h : name = a.canonical <;> simp [h, hw]
    · rw [get?_append, get?_erase, if_neg hname, get?_singleton, hv]
      by_cases h : name = a.canonical <;> simp [h]
  · next hnone => by_cases h : name = a.canonical <;> simp [h, hnone]

/-- A table of aliases in which it cannot matter when a name is read: no name is an older one twice,
or both an older and a current one. -/
structure IsLegible (aliases : List Alias) : Prop where
  /-- Each older name stands once. -/
  nodup : (aliases.map Alias.legacy).Nodup
  /-- No older name is a current one. -/
  ne : ∀ a ∈ aliases, ∀ b ∈ aliases, a.legacy ≠ b.canonical

theorem IsLegible.tail (h : IsLegible (a :: aliases)) : IsLegible aliases where
  nodup := (List.nodup_cons.1 h.nodup).2
  ne b hb c hc := h.ne b (List.mem_cons_of_mem a hb) c (List.mem_cons_of_mem a hc)

theorem findSome?_congr {α β : Type} {f g : α → Option β} {l : List α}
    (h : ∀ a ∈ l, f a = g a) : l.findSome? f = l.findSome? g := by
  induction l with
  | nil => rfl
  | cons a rest ih =>
    rw [List.findSome?_cons, List.findSome?_cons, h a List.mem_cons_self,
      ih fun b hb => h b (List.mem_cons_of_mem a hb)]

/-- What settings say under a name: the value there, or else the one under the first of its older
names that is in use. -/
def stated (aliases : List Alias) (fields : Fields) (name : String) : Option Value :=
  (fields.get? name).or
    ((aliases.filter (·.canonical == name)).findSome? fun a => fields.get? a.legacy)

theorem stated_cons (a : Alias) (aliases : List Alias) (fields : Fields) (name : String) :
    stated (a :: aliases) fields name =
      if name = a.canonical then (fields.get? name).or ((fields.get? a.legacy).or
        ((aliases.filter (·.canonical == name)).findSome? fun a => fields.get? a.legacy))
      else stated aliases fields name := by
  rw [stated, stated, List.filter_cons]
  by_cases h : name = a.canonical
  · subst h
    cases hlegacy : fields.get? a.legacy <;> simp [hlegacy]
  · simp [h, Ne.symm h]

/-- **Applying a table of aliases computes what settings say.** -/
theorem get?_renameAll (h : IsLegible aliases) (fields : Fields)
    (hname : ∀ a ∈ aliases, name ≠ a.legacy) :
    (renameAll aliases fields).get? name = stated aliases fields name := by
  induction aliases generalizing fields with
  | nil => simp [renameAll, stated]
  | cons a rest ih =>
    have hne := hname a List.mem_cons_self
    -- the older names of the rest are neither of the two that the first alias is about
    have hrest : ∀ b ∈ rest, (rename fields a).get? b.legacy = fields.get? b.legacy := by
      intro b hb
      have hlegacy : b.legacy ≠ a.legacy := fun heq =>
        (List.nodup_cons.1 h.nodup).1 (heq ▸ List.mem_map_of_mem hb)
      rw [get?_rename a fields hlegacy,
        if_neg (h.ne b (List.mem_cons_of_mem a hb) a List.mem_cons_self)]
    have hfind : ((rest.filter (·.canonical == name)).findSome? fun b =>
        (rename fields a).get? b.legacy) =
        (rest.filter (·.canonical == name)).findSome? fun b => fields.get? b.legacy :=
      findSome?_congr fun b hb => hrest b (List.mem_of_mem_filter hb)
    calc (renameAll (a :: rest) fields).get? name
        = stated rest (rename fields a) name :=
          ih h.tail (rename fields a) fun b hb => hname b (List.mem_cons_of_mem a hb)
      _ = stated (a :: rest) fields name := by
          rw [stated_cons, stated, hfind, get?_rename a fields hne]
          by_cases heq : name = a.canonical
          · rw [if_pos heq, if_pos heq, Option.or_assoc]
          · rw [if_neg heq, if_neg heq, stated]

end Settings
end SpaceCurve
