import SpaceCurve.Proofs.Records

/-!
# What a table of aliases does to a record

The aliases of a table are applied one after another, each to what the ones before it have made of
the record.  A value may so move several times, and of several older names of one setting only the
first that is in use is given up.  What survives all this is seen from one alias: the value moves to
a name that was free, so it is a field of the record under another name and nothing else.

That a second pass changes nothing is another matter, and needs a table in which no current name is
an older one as well.  An alias has nothing to do when its older name is not in use or its current
one is; in such a table no other alias takes up the older name again or gives up the current one.

## What is here

* `Fields.perm_cons_erase` — a record is one of its fields and all the others.
* `Settings.rename_eq_self_or` — what an alias does, if anything.
* `Settings.Settled` — an alias has nothing to do.  `Settled.rename` says that it stays so.
* `Settings.renameCopy` — the aliases as the owner of a record sees them at work, on a copy.
* `renameAll_moves_values` — what is left of a record, and what is new.
-/

set_option autoImplicit false

namespace SpaceCurve

/-! ## One field and the others -/

namespace Fields

variable {fields : Fields} {name : String} {v : Value}

theorem erase_eq_self (h : fields.get? name = none) : fields.erase name = fields := by
  have hhas := has_eq_false_iff.2 h
  rw [erase, List.filter_eq_self]
  intro f hf
  simpa using List.any_eq_false.1 hhas f hf

/-- **A record is what it has under a name, and the rest.** -/
theorem perm_cons_erase (h : fields.Distinct) (hv : fields.get? name = some v) :
    fields.Perm ((name, v) :: fields.erase name) := by
  induction fields with
  | nil => cases hv
  | cons f rest ih =>
    obtain ⟨hf, hrest⟩ := List.nodup_cons.1 h
    rw [get?_cons] at hv
    split at hv
    · next heq =>
      obtain rfl := Option.some.inj hv
      subst heq
      have hnone : get? rest f.1 = none := by
        rw [← has_eq_false_iff, has, List.any_eq_false]
        intro g hg heq
        exact hf (beq_iff_eq.1 heq ▸ List.mem_map_of_mem hg)
      have herase : erase (f :: rest) f.1 = rest := by
        rw [erase, List.filter_cons_of_neg (by simp), ← erase, erase_eq_self hnone]
      rw [herase]
    · next hne =>
      have herase : erase (f :: rest) name = f :: erase rest name := by
        rw [erase, List.filter_cons_of_pos (by simpa using Ne.symm hne), erase]
      rw [herase]
      exact ((ih hrest hv).cons f).trans (.swap _ _ _)

end Fields

namespace Settings

open Fields

variable {aliases : List Alias} {a b : Alias} {fields : Fields} {name : String} {v : Value}

/-! ## One alias -/

/-- **An alias does nothing, or it moves a value to a name that is free.** -/
theorem rename_eq_self_or (a : Alias) (fields : Fields) :
    rename fields a = fields ∨ ∃ v, fields.get? a.legacy = some v ∧
      fields.get? a.canonical = none ∧
      rename fields a = fields.erase a.legacy ++ [(a.canonical, v)] := by
  rw [rename]
  split
  · next v hv =>
    split
    · exact .inl rfl
    · next hhas => exact .inr ⟨v, hv, has_eq_false_iff.1 (Bool.eq_false_iff.2 hhas), rfl⟩
  · exact .inl rfl

theorem Distinct.rename (h : fields.Distinct) (a : Alias) : (rename fields a).Distinct := by
  rcases rename_eq_self_or a fields with heq | ⟨v, -, hfree, heq⟩
  · rwa [heq]
  · have hfree' : (fields.erase a.legacy).get? a.canonical = none := by
      rw [get?_erase, hfree, ite_self]
    have hnew := not_mem_names_of_has (has_eq_false_iff.2 hfree')
    rw [heq, Distinct, List.map_append]
    exact List.Nodup.append (h.erase _) (List.nodup_singleton _) (by simpa using hnew)

theorem perm_values_rename (h : fields.Distinct) (a : Alias) :
    ((rename fields a).map Prod.snd).Perm (fields.map Prod.snd) := by
  rcases rename_eq_self_or a fields with heq | ⟨v, hv, -, heq⟩
  · rw [heq]
  · rw [heq, List.map_append]
    exact (List.perm_append_singleton v _).trans ((perm_cons_erase h hv).map Prod.snd).symm

/-- What stands under a name that is not the older one stays there. -/
theorem get?_rename_of_some (hv : fields.get? name = some v) (hname : a.legacy ≠ name) :
    (rename fields a).get? name = some v := by
  rw [get?_rename a fields hname.symm, hv, Option.some_or, ite_self]

/-! ## All aliases of a table -/

theorem renameAll_cons (a : Alias) (aliases : List Alias) (fields : Fields) :
    renameAll (a :: aliases) fields = renameAll aliases (rename fields a) := rfl

/-- What every alias keeps is kept by a table of them. -/
theorem renameAll_induction {P : Fields → Prop} (h : P fields)
    (step : ∀ a ∈ aliases, ∀ fields, P fields → P (rename fields a)) :
    P (renameAll aliases fields) := by
  induction aliases generalizing fields with
  | nil => exact h
  | cons a rest ih =>
    exact ih (step a List.mem_cons_self fields h) fun b hb => step b (List.mem_cons_of_mem a hb)

theorem distinct_and_perm_renameAll (h : fields.Distinct) (aliases : List Alias) :
    (renameAll aliases fields).Distinct ∧
      ((renameAll aliases fields).map Prod.snd).Perm (fields.map Prod.snd) :=
  renameAll_induction (P := fun others =>
      others.Distinct ∧ (others.map Prod.snd).Perm (fields.map Prod.snd)) ⟨h, .refl _⟩
    fun a _ _ h => ⟨Distinct.rename h.1 a, (perm_values_rename h.1 a).trans h.2⟩

theorem get?_renameAll_of_some (hv : fields.get? name = some v)
    (hname : ∀ a ∈ aliases, a.legacy ≠ name) : (renameAll aliases fields).get? name = some v :=
  renameAll_induction (P := fun others => others.get? name = some v) hv
    fun a ha _ h => get?_rename_of_some h (hname a ha)

/-! ## A second pass -/

/-- The alias has nothing to do: its older name is not in use, or its current one is. -/
def Settled (a : Alias) (fields : Fields) : Prop :=
  fields.get? a.legacy = none ∨ ∃ v, fields.get? a.canonical = some v

theorem Settled.rename_eq (h : Settled a fields) : rename fields a = fields := by
  rcases rename_eq_self_or a fields with heq | ⟨v, hv, hfree, -⟩
  · exact heq
  · rcases h with hnone | ⟨w, hw⟩
    · exact absurd hv (by simp [hnone])
    · exact absurd hw (by simp [hfree])

/-- An alias that has been applied has nothing more to do. -/
theorem settled_rename (a : Alias) (fields : Fields) : Settled a (rename fields a) := by
  rw [rename]
  split
  · next v hv =>
    split
    · next hhas => exact .inr (has_eq_true_iff.1 hhas)
    · next hhas =>
      have hfree := has_eq_false_iff.1 (Bool.eq_false_iff.2 hhas)
      refine .inr ⟨v, ?_⟩
      rw [get?_append, get?_erase, hfree, ite_self, Option.none_or, get?_singleton, if_pos rfl]
  · next hnone => exact .inl hnone

/-- **Another alias gives it nothing to do**, if it neither takes up the older name nor gives up the
current one. -/
theorem Settled.rename (h : Settled b fields) (hlegacy : b.legacy ≠ a.canonical)
    (hcanonical : a.legacy ≠ b.canonical) : Settled b (rename fields a) := by
  rcases h with hnone | ⟨v, hv⟩
  · rcases rename_eq_self_or a fields with heq | ⟨v, -, -, heq⟩
    · exact .inl (by rw [heq, hnone])
    · refine .inl ?_
      rw [heq, get?_append, get?_erase, hnone, ite_self, get?_singleton, if_neg hlegacy,
        Option.or_none]
  · exact .inr ⟨v, get?_rename_of_some hv hcanonical⟩

/-- **After a pass no alias of the table has anything to do.** -/
theorem settled_renameAll (h : ∀ a ∈ aliases, ∀ b ∈ aliases, a.legacy ≠ b.canonical)
    (ha : a ∈ aliases) (fields : Fields) : Settled a (renameAll aliases fields) := by
  obtain ⟨before, after, hsplit⟩ := List.append_of_mem ha
  have hpass : renameAll aliases fields =
      renameAll after (Settings.rename (renameAll before fields) a) := by
    rw [hsplit, renameAll, List.foldl_append, List.foldl_cons]
    rfl
  rw [hpass]
  refine renameAll_induction (settled_rename a _) fun b hb _ hsettled => ?_
  have hb' : b ∈ aliases := by
    rw [hsplit]
    exact List.mem_append_right _ (List.mem_cons_of_mem a hb)
  exact hsettled.rename (h a ha b hb') (h b hb' a ha)

theorem renameAll_eq_self (h : ∀ a ∈ aliases, Settled a fields) :
    renameAll aliases fields = fields :=
  renameAll_induction (P := fun others => others = fields) rfl
    fun a ha _ heq => by rw [heq, (h a ha).rename_eq]

/-- What is stated under a current name that is not in use is the value under the first of its older
names that is. -/
theorem stated_of_first {before after : List Alias} (hfree : fields.get? a.canonical = none)
    (hv : fields.get? a.legacy = some v)
    (hbefore : ∀ b ∈ before, b.canonical = a.canonical → fields.get? b.legacy = none) :
    stated (before ++ a :: after) fields a.canonical = some v := by
  have hnone : ((before.filter (·.canonical == a.canonical)).findSome? fun b =>
      fields.get? b.legacy) = none := by
    rw [List.findSome?_eq_none_iff]
    intro b hb
    obtain ⟨hb, hcanonical⟩ := List.mem_filter.1 hb
    exact hbefore b hb (beq_iff_eq.1 hcanonical)
  have hself : (a :: after).filter (·.canonical == a.canonical) =
      a :: after.filter (·.canonical == a.canonical) :=
    List.filter_cons_of_pos (beq_self_eq_true a.canonical)
  rw [stated, hfree, Option.none_or, List.filter_append, List.findSome?_append, hnone,
    Option.none_or, hself, List.findSome?_cons, hv]

/-! ## The record that is given -/

/-- The aliases applied as they are where records are shared: the record is copied to the end of the
store, and there the values move one after another. -/
def renameCopy (aliases : List Alias) (store : List Fields) (given : Nat) : List Fields :=
  aliases.foldl (fun store' a => store'.modify store.length fun fields => rename fields a)
    (store ++ store[given]?.toList)

/-- **No record is changed**, and the copy is what the aliases make of the record that is given. -/
theorem renameCopy_eq {store : List Fields} {given : Nat} (h : store[given]? = some fields)
    (aliases : List Alias) :
    renameCopy aliases store given = store ++ [renameAll aliases fields] := by
  have hfold : ∀ fields : Fields,
      aliases.foldl (fun store' a => store'.modify store.length fun fields => rename fields a)
        (store ++ [fields]) = store ++ [renameAll aliases fields] := by
    induction aliases with
    | nil => exact fun _ => rfl
    | cons a rest ih =>
      intro fields
      rw [List.foldl_cons, renameAll_cons, ← ih, List.modify_eq_take_drop, List.take_left,
        List.drop_left, List.modifyHead_cons]
  rw [renameCopy, h, Option.toList_some, hfold]

/-! ## Tables -/

/-- **Aliases move values to other names, and that is all.**  In a record under the table of aliases
there are as many fields as before and the same values; what is under a name that is no older one
stays there, so that it is never overwritten; and the record that was given is not changed.  If no
current name of the table is an older one as well, a second pass changes nothing, and a current name
that is not in use gets the value of the first of its older names that is. -/
theorem renameAll_moves_values {fields : Fields} (hfields : fields.Distinct) {aliases : List Alias}
    (haliases : (aliases.map Alias.legacy).Nodup) :
    ((renameAll aliases fields).Distinct ∧ (renameAll aliases fields).length = fields.length ∧
      ((renameAll aliases fields).map Prod.snd).Perm (fields.map Prod.snd)) ∧
    (∀ name v, (∀ a ∈ aliases, a.legacy ≠ name) → fields.get? name = some v →
      (renameAll aliases fields).get? name = some v) ∧
    (∀ (store : List Fields) (given : Nat), store[given]? = some fields →
      renameCopy aliases store given = store ++ [renameAll aliases fields]) ∧
    ((∀ a ∈ aliases, ∀ b ∈ aliases, a.legacy ≠ b.canonical) →
      renameAll aliases (renameAll aliases fields) = renameAll aliases fields ∧
      ∀ before a after v, aliases = before ++ a :: after → fields.get? a.canonical = none →
        fields.get? a.legacy = some v →
        (∀ b ∈ before, b.canonical = a.canonical → fields.get? b.legacy = none) →
        (renameAll aliases fields).get? a.canonical = some v) := by
  obtain ⟨hdistinct, hvalues⟩ := distinct_and_perm_renameAll hfields aliases
  have hlength : (renameAll aliases fields).length = fields.length := by
    simpa using hvalues.length_eq
  refine ⟨⟨hdistinct, hlength, hvalues⟩, fun name v hname hv => get?_renameAll_of_some hv hname,
    fun store given h => renameCopy_eq h aliases, fun hne => ⟨?_, ?_⟩⟩
  · exact renameAll_eq_self fun a ha => settled_renameAll hne ha fields
  · rintro before a after v rfl hfree hv hbefore
    have ha : a ∈ before ++ a :: after := List.mem_append_right _ List.mem_cons_self
    rw [get?_renameAll ⟨haliases, hne⟩ fields fun b hb => (hne b hb a ha).symm]
    exact stated_of_first hfree hv hbefore

/-- Three older names of one setting, of which the second and the third are in use. -/
theorem renameAll_moves_values_second :
    let aliases : List Alias :=
      [⟨"rigid", "strictness"⟩, ⟨"level", "strictness"⟩, ⟨"strict", "strictness"⟩]
    let fields : Fields := [("strict", .bool false), ("colour", .text "red"), ("level", .int 3)]
    (fields.Distinct ∧ (aliases.map Alias.legacy).Nodup ∧
        ∀ a ∈ aliases, ∀ b ∈ aliases, a.legacy ≠ b.canonical) ∧
      (renameAll aliases fields).length = 3 ∧
      (renameAll aliases fields).get? "strictness" = some (.int 3) ∧
      (renameAll aliases fields).get? "colour" = some (.text "red") ∧
      renameAll aliases (renameAll aliases fields) = renameAll aliases fields := by
  intro aliases fields
  have hfields : fields.Distinct := by decide
  have haliases : (aliases.map Alias.legacy).Nodup := by decide
  have hne : ∀ a ∈ aliases, ∀ b ∈ aliases, a.legacy ≠ b.canonical := by decide
  obtain ⟨⟨-, hlength, -⟩, hkeeps, -, htable⟩ := renameAll_moves_values hfields haliases
  obtain ⟨hagain, hfirst⟩ := htable hne
  refine ⟨⟨hfields, haliases, hne⟩, hlength, ?_, hkeeps "colour" _ (by decide) rfl, hagain⟩
  refine hfirst [⟨"rigid", "strictness"⟩] ⟨"level", "strictness"⟩ [⟨"strict", "strictness"⟩] _ rfl
    rfl rfl ?_
  rw [List.forall_mem_singleton]
  exact fun _ => rfl

end Settings
end SpaceCurve
