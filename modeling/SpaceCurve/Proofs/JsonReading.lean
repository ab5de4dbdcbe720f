import SpaceCurve.Proofs.JsonText

/-!
# What JSON is read as

Whatever is read out of a JSON text, JSON can say.

## What is here

* `Token.IsPlain`, `State.IsPlain` — what holds of every token, and of the machine between two of
  them: no value in it is nested too deep for its place, and no name stands twice in a record.
* `State.IsPlain.step` — a step of the machine keeps this.
* `plain_of_readWithin` — **what is read is plain**, within the limit for the nesting.
* `exists_readWithin_iff` — so the values that are read are just those that JSON can say.
-/

set_option autoImplicit false

namespace SpaceCurve
namespace Json

/-! ## Tokens -/

/-- A literal is plain, whatever stands around it. -/
def Token.IsPlain : Token → Prop
  | .literal v => Plain 0 v
  | _ => True

theorem isDigit_of_wholePart? {text whole rest : List Char}
    (h : wholePart? text = some (whole, rest)) : ∀ c ∈ whole, c.isDigit = true := by
  rw [wholePart?.eq_def] at h
  split at h
  · cases h
    exact List.forall_mem_singleton.2 rfl
  · split at h
    · have hwhole := congrArg Prod.fst (Option.some.inj h)
      rw [List.span_eq_takeWhile_dropWhile] at hwhole
      rw [← show _ = whole from hwhole]
      exact fun c hc => List.mem_takeWhile_imp hc
    · cases h
  · cases h

theorem isPlain_numberToken? {negative : Bool} {text rest : List Char} {t : Token}
    (h : numberToken? negative text = some (t, rest)) : t.IsPlain := by
  rw [numberToken?] at h
  obtain ⟨⟨whole, after⟩, hwhole, h⟩ := Option.bind_eq_some_iff.1 h
  obtain ⟨fraction, hfraction⟩ : ∃ fraction, fraction = (fractionPart after).1 := ⟨_, rfl⟩
  simp only [← hfraction] at h
  split at h
  · next hint =>
    obtain rfl : fraction = [] := List.isEmpty_iff.1 (Bool.and_eq_true_iff.1 hint).1
    rw [List.append_nil] at h
    split at h
    · cases h
      exact trivial
    · next hlong =>
      have hlt := (Numeral.numberOf_lt (isDigit_of_wholePart? hwhole)).trans_le
        (Nat.pow_le_pow_right (by decide) (Nat.not_lt.1 hlong))
      cases h
      cases negative with
      | false => exact .int hlt
      | true => exact .int (by rwa [if_pos rfl, Int.natAbs_neg])
  · cases h
    exact .real _

theorem isPlain_wordToken? {text rest : List Char} {t : Token}
    (h : wordToken? text = some (t, rest)) : t.IsPlain := by
  obtain ⟨⟨word, value⟩, hentry, h⟩ := List.exists_of_findSome?_eq_some h
  dsimp only at h
  split at h
  · cases h
    have hwords : ∀ entry ∈ words, Plain 0 entry.2 := by
      simp [words, Plain.null, Plain.bool, Plain.real]
    exact hwords (word, value) hentry
  · cases h

theorem isPlain_token? {text rest : List Char} {t : Token} (h : token? text = some (t, rest)) :
    t.IsPlain := by
  have hnumber : ∀ {negative body text}, (numberToken? negative body).or (wordToken? text) =
      some (t, rest) → t.IsPlain := fun h => by
    rcases Option.or_eq_some_iff.1 h with hnumber | ⟨-, hword⟩
    · exact isPlain_numberToken? hnumber
    · exact isPlain_wordToken? hword
  rw [token?.eq_def] at h
  split at h
  iterate 6
    · cases h
      exact trivial
  · split at h
    · obtain ⟨body, -, h⟩ := Option.map_eq_some_iff.1 h
      cases h
      exact trivial
    · split at h <;> exact hnumber h
  · cases h

theorem isPlain_of_mem_tokensFrom {fuel : Nat} {text : List Char} {t : Token}
    (h : t ∈ tokensFrom fuel text) : t.IsPlain := by
  induction fuel generalizing text with
  | zero => cases h
  | succ fuel ih =>
    rw [tokensFrom] at h
    split at h
    · cases h
    · split at h
      · next htoken =>
        obtain rfl | hmem := List.mem_cons.1 h
        · exact isPlain_token? htoken
        · exact ih hmem
      · obtain rfl := List.mem_singleton.1 h
        exact trivial

/-! ## The machine -/

variable {limit : Nat} {stack : List Frame}

/-- Lists and records that are open, one inside another: what is in them already is nested no deeper
than it may be there. -/
inductive Frame.ArePlain (limit : Nat) : List Frame → Prop
  | nil : ArePlain limit []
  | list {stack : List Frame} {before : List Value} (room : stack.length < limit)
      (items_plain : ∀ v ∈ before, Plain (limit - (stack.length + 1)) v)
      (outer : ArePlain limit stack) : ArePlain limit (.list before :: stack)
  | record {stack : List Frame} {before : Fields} (name : String) (room : stack.length < limit)
      (distinct : before.Distinct)
      (fields_plain : ∀ f ∈ before, Plain (limit - (stack.length + 1)) f.2)
      (outer : ArePlain limit stack) : ArePlain limit (.record before name :: stack)

/-- The machine has no value that is nested too deep, and no name twice in a record. -/
inductive State.IsPlain (limit : Nat) : State → Prop
  | value {stack : List Frame} (open_plain : Frame.ArePlain limit stack) :
      IsPlain limit ⟨stack, .value⟩
  | valueOrClose {stack : List Frame} (open_plain : Frame.ArePlain limit stack) :
      IsPlain limit ⟨stack, .valueOrClose⟩
  | commaOrClose {stack : List Frame} (open_plain : Frame.ArePlain limit stack) :
      IsPlain limit ⟨stack, .commaOrClose⟩
  | nameOrClose {stack : List Frame} (open_plain : Frame.ArePlain limit stack)
      (room : stack.length < limit) : IsPlain limit ⟨stack, .nameOrClose⟩
  /-- A record whose next name or value is awaited stands as if it were open. -/
  | name {stack : List Frame} {before : Fields} {last : String}
      (open_plain : Frame.ArePlain limit (.record before last :: stack)) :
      IsPlain limit ⟨stack, .name before⟩
  | colon {stack : List Frame} {before : Fields} {name : String}
      (open_plain : Frame.ArePlain limit (.record before name :: stack)) :
      IsPlain limit ⟨stack, .colon before name⟩
  | done {v : Value} (h : Plain limit v) : IsPlain limit ⟨[], .done v⟩

/-- A complete value of the depth that is left goes into its place. -/
theorem State.isPlain_accept {v : Value} (hstack : Frame.ArePlain limit stack)
    (hv : Plain (limit - stack.length) v) : (State.accept v stack).IsPlain limit := by
  cases hstack with
  | nil => exact .done hv
  | list room items_plain outer =>
    exact .commaOrClose (.list room
      (List.forall_mem_append.2 ⟨items_plain, List.forall_mem_singleton.2 hv⟩) outer)
  | @record _ before name room distinct fields_plain outer =>
    refine .commaOrClose (.record name room (distinct.set name v) (fun f hf => ?_) outer)
    rw [Fields.set] at hf
    split at hf
    · obtain ⟨g, hg, rfl⟩ := List.mem_map.1 hf
      split
      · exact hv
      · exact fields_plain g hg
    · obtain hbefore | hnew := List.mem_append.1 hf
      · exact fields_plain f hbefore
      · obtain rfl := List.mem_singleton.1 hnew
        exact hv

/-- A list or record that is closed is a value of the depth that is left outside. -/
theorem State.isPlain_accept_closed {v : Value} (hstack : Frame.ArePlain limit stack)
    (room : stack.length < limit) (hv : Plain (limit - (stack.length + 1) + 1) v) :
    (State.accept v stack).IsPlain limit :=
  State.isPlain_accept hstack (hv.mono (by omega))

theorem State.isPlain_begin (hstack : Frame.ArePlain limit stack) {t : Token} (ht : t.IsPlain)
    {s : State} (h : State.begin limit stack t = .ok s) : s.IsPlain limit := by
  rw [State.begin.eq_def] at h
  split at h
  · cases h
    exact State.isPlain_accept hstack (Plain.mono ht (Nat.zero_le _))
  · cases h
    exact State.isPlain_accept hstack (.text _)
  · split at h
    · cases h
    · next hroom =>
      cases h
      exact .valueOrClose (.list (Nat.not_le.1 hroom) (List.forall_mem_nil _) hstack)
  · split at h
    · cases h
    · next hroom =>
      cases h
      exact .nameOrClose hstack (Nat.not_le.1 hroom)
  · cases h
  · cases h

/-- **A step keeps what is plain plain.** -/
theorem State.IsPlain.step {s s' : State} (hs : s.IsPlain limit) {t : Token} (ht : t.IsPlain)
    (h : State.step limit s t = .ok s') : s'.IsPlain limit := by
  cases hs with
  | value hstack => exact State.isPlain_begin hstack ht h
  | valueOrClose hstack =>
    by_cases hclose : t = .closeList
    · subst hclose
      cases hstack with
      | nil => cases h
      | list room items_plain outer =>
        cases h
        exact State.isPlain_accept_closed outer room (.list items_plain)
      | record => cases h
    · exact State.isPlain_begin hstack ht ((step_begin (.inr rfl) hclose).symm.trans h)
  | commaOrClose hstack =>
    cases hstack with
    | nil => cases t <;> cases h
    | list room items_plain outer =>
      cases t with
      | comma =>
        cases h
        exact .value (.list room items_plain outer)
      | closeList =>
        cases h
        exact State.isPlain_accept_closed outer room (.list items_plain)
      | _ => cases h
    | record name room distinct fields_plain outer =>
      cases t with
      | comma =>
        cases h
        exact .name (.record name room distinct fields_plain outer)
      | closeRecord =>
        cases h
        exact State.isPlain_accept_closed outer room (.record distinct fields_plain)
      | _ => cases h
  | nameOrClose hstack room =>
    have hempty : Fields.Distinct [] := List.nodup_nil
    cases t with
    | closeRecord =>
      cases h
      exact State.isPlain_accept_closed hstack room (.record hempty (List.forall_mem_nil _))
    | text name =>
      cases h
      exact .colon (.record name room hempty (List.forall_mem_nil _) hstack)
    | _ => cases h
  | name hstack =>
    obtain - | - | ⟨-, room, distinct, fields_plain, outer⟩ := hstack
    cases t with
    | text name =>
      cases h
      exact .colon (.record name room distinct fields_plain outer)
    | _ => cases h
  | colon hstack =>
    cases t with
    | colon =>
      cases h
      exact .value hstack
    | _ => cases h
  | done => cases t <;> cases h

theorem State.IsPlain.run {s s' : State} (hs : s.IsPlain limit) {ts : List Token}
    (hts : ∀ t ∈ ts, t.IsPlain) (h : ts.foldlM (State.step limit) s = .ok s') :
    s'.IsPlain limit := by
  induction ts generalizing s with
  | nil =>
    cases h
    exact hs
  | cons t ts ih =>
    obtain ⟨ht, hts⟩ := List.forall_mem_cons.1 hts
    rw [List.foldlM_cons] at h
    obtain ⟨s₁, hstep, hrun⟩ := bind_eq_ok_iff.1 h
    exact ih (hs.step ht hstep) hts hrun

/-- **What is read is plain**, within the limit for the nesting. -/
theorem plain_of_readWithin {text : String} {v : Value} (h : readWithin limit text = .ok v) :
    Plain limit v := by
  obtain ⟨s, hrun, h⟩ := bind_eq_ok_iff.1 h
  have hs := (State.IsPlain.value Frame.ArePlain.nil).run
    (fun t ht => isPlain_of_mem_tokensFrom ht) hrun
  cases hs with
  | done hv =>
    cases h
    exact hv
  | _ => cases h

/-- **The values that are read are just those that JSON can say.** -/
theorem exists_readWithin_iff {v : Value} :
    (∃ text, readWithin limit text = .ok v) ↔ Plain limit v :=
  ⟨fun ⟨_, h⟩ => plain_of_readWithin h, fun h => ⟨_, @readWithin_render limit v h none nofun⟩⟩

end Json
end SpaceCurve
