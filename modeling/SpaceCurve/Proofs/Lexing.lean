import SpaceCurve.Equation.Lexer
import Mathlib

/-!
# What the lexer reads

`Lexer.scan` is a loop over characters.  This file says what it computes without following the
loop: a text is read when it is white space interleaved with lexemes of the lexicon, each of them
as long as it can be, and there is at most one way to read it so.

## What is here

* `Spells l run` — the characters `run` are a spelling of the lexeme `l`.  Only the power operator
  has two spellings.
* `goesOn l c` and `Ends l after` — a lexeme is as long as it can be when what follows does not
  carry it on.
* `Lexed p text tokens q after` — from position `p` on, `text` is `tokens` up to position `q`,
  where `after` is left.  `lexed_nil_iff_scan` says that the lexer finds exactly this.
* `Foreign after` — no lexeme of the lexicon stands at the beginning of `after`.  This is where
  the lexer fails, and the only place.
* `LaidOut text tokens` — what a reading says about positions: they increase, a spelling of each
  token stands at its position, and all other characters are blank.
-/

set_option autoImplicit false

namespace SpaceCurve
namespace Lexer

/-! ## Spellings -/

/-- The spellings of a lexeme. -/
inductive Spells : Lexeme → List Char → Prop
  /-- ASCII digits with at most one point among them, and not the point alone. -/
  | number {run : List Char} (digits : ∀ c ∈ run, c.isDigit = true ∨ c = '.')
      (point : run.count '.' ≤ 1) (ne_nil : run ≠ []) (ne_point : run ≠ ['.']) :
      Spells (.number run) run
  | name (s : Symbol) : Spells (.symbol s) s.spelling.toList
  | sign (o : Operator) : Spells (.operator o) o.sign.toList
  | stars : Spells (.operator .pow) ['*', '*']
  | opening : Spells .opening ['(']
  | closing : Spells .closing [')']
  | comma : Spells .comma [',']

/-- Whether a lexeme would go on if the character stood right after it. -/
def goesOn : Lexeme → Char → Bool
  | .number _, c => c.isDigit || c == '.'
  | .symbol _, c => Text.continuesName c
  | .operator .mul, c => c == '*'
  | _, _ => false

/-- The lexeme ends where `after` begins. -/
def Ends (l : Lexeme) (after : List Char) : Prop := ∀ c, after.head? = some c → goesOn l c = false

theorem ends_cons {l : Lexeme} {c : Char} {rest : List Char} :
    Ends l (c :: rest) ↔ goesOn l c = false := by
  simp [Ends]

/-- No lexeme of the lexicon stands at the beginning of the text, and no white space either. -/
def Foreign (text : List Char) : Prop :=
  (∃ c rest, text = c :: rest ∧ Text.isBlank c = false) ∧
    ∀ l run after, text = run ++ after → Spells l run → ¬ Ends l after

/-! ## Classes of characters

Which branch of `lexemeAt` reads a lexeme is decided by the first character of its spelling, so
the classes have to be told apart: what may stand in a number, what begins a name, what is blank.
-/

theorem inNumber_eq_true_iff {c : Char} : inNumber c = true ↔ c.isDigit = true ∨ c = '.' := by
  simp [inNumber]

theorem isBlank_of_inNumber {c : Char} (h : inNumber c = true) : Text.isBlank c = false := by
  have hn : c.toNat = 0x2e ∨ (0x30 ≤ c.toNat ∧ c.toNat ≤ 0x39) := by
    rcases inNumber_eq_true_iff.1 h with h | rfl
    · exact .inr (Char.isDigit_iff_toNat.1 h)
    · exact .inl rfl
  simp only [Text.isBlank, Bool.or_eq_false_iff, Bool.and_eq_false_iff, decide_eq_false_iff_not,
    beq_eq_false_iff_ne]
  omega

/-- What the name of a symbol is made of. -/
theorem spelling_chars (s : Symbol) :
    ∃ c rest, s.spelling.toList = c :: rest ∧ inNumber c = false ∧ Text.beginsName c = true ∧
      Text.isBlank c = false ∧ ∀ d ∈ rest, Text.continuesName d = true := by
  rcases s with _ | c | f
  · exact ⟨_, _, rfl, rfl, rfl, rfl, List.all_eq_true.1 rfl⟩
  · cases c <;> exact ⟨_, _, rfl, rfl, rfl, rfl, List.all_eq_true.1 rfl⟩
  · cases f <;> exact ⟨_, _, rfl, rfl, rfl, rfl, List.all_eq_true.1 rfl⟩

/-- A spelling begins with a character that is not blank. -/
theorem Spells.exists_head {l : Lexeme} {run : List Char} (h : Spells l run) :
    ∃ c rest, run = c :: rest ∧ Text.isBlank c = false := by
  cases h with
  | number digits _ ne_nil _ =>
    obtain ⟨c, rest, rfl⟩ := List.exists_cons_of_ne_nil ne_nil
    have hc := digits c (by simp)
    exact ⟨c, rest, rfl, isBlank_of_inNumber (inNumber_eq_true_iff.2 hc)⟩
  | name s =>
    obtain ⟨c, rest, hs, -, -, hb, -⟩ := spelling_chars s
    exact ⟨c, rest, hs, hb⟩
  | sign o => cases o <;> exact ⟨_, _, rfl, by decide⟩
  | stars => exact ⟨_, _, rfl, by decide⟩
  | opening => exact ⟨_, _, rfl, by decide⟩
  | closing => exact ⟨_, _, rfl, by decide⟩
  | comma => exact ⟨_, _, rfl, by decide⟩

/-- A run of one class of characters, cut off where the class ends. -/
theorem span_append {p : Char → Bool} {run after : List Char} (hall : ∀ c ∈ run, p c = true)
    (hend : ∀ c, after.head? = some c → p c = false) :
    (run ++ after).takeWhile p = run ∧ (run ++ after).dropWhile p = after := by
  rw [List.takeWhile_append_of_pos hall, List.dropWhile_append_of_pos hall]
  cases after with
  | nil => simp
  | cons c rest => simp [hend c rfl]

theorem head?_dropWhile {p : Char → Bool} {text : List Char} {c : Char}
    (h : (text.dropWhile p).head? = some c) : p c = false := by
  have hn := List.head?_dropWhile_not p text
  rw [h] at hn
  exact hn

/-! ## One lexeme -/

/-- What `lexemeAt` returns is a lexeme of the lexicon, and as long as it can be. -/
theorem spells_of_lexemeAt {c : Char} {rest after : List Char} {l : Lexeme}
    (h : lexemeAt c rest = .ok (l, after)) :
    ∃ run, c :: rest = run ++ after ∧ Spells l run ∧ Ends l after := by
  rw [lexemeAt.eq_def] at h
  split at h
  · rename_i hc
    simp only at h
    split at h
    · rename_i hrun
      obtain ⟨rfl, rfl⟩ := Prod.mk.injEq .. ▸ Except.ok.injEq .. ▸ h
      simp only [isNumber, Bool.and_eq_true, decide_eq_true_eq, bne_iff_ne] at hrun
      refine ⟨c :: rest.takeWhile inNumber, by simp, .number ?_ hrun.1 (by simp) hrun.2, ?_⟩
      · intro d hd
        rcases List.mem_cons.1 hd with rfl | hd
        · exact inNumber_eq_true_iff.1 hc
        · exact inNumber_eq_true_iff.1 (List.mem_takeWhile_imp hd)
      · exact fun d hd => head?_dropWhile hd
    · cases h
  · split at h
    · simp only at h
      split at h
      · rename_i s hs
        obtain ⟨rfl, rfl⟩ := Prod.mk.injEq .. ▸ Except.ok.injEq .. ▸ h
        refine ⟨c :: rest.takeWhile Text.continuesName, by simp, ?_, fun d hd => head?_dropWhile hd⟩
        have hrun := congrArg String.toList (Symbol.spelling_of_ofSpelling? hs)
        rw [String.toList_ofList] at hrun
        exact hrun ▸ .name s
      · cases h
    · split at h
      · rename_i hc
        obtain rfl := eq_of_beq hc
        -- two stars are the power operator; one is a product only when no second one follows
        split at h
        · obtain ⟨rfl, rfl⟩ := Prod.mk.injEq .. ▸ Except.ok.injEq .. ▸ h
          exact ⟨['*', '*'], rfl, .stars, fun _ _ => rfl⟩
        · rename_i hrest
          obtain ⟨rfl, rfl⟩ := Prod.mk.injEq .. ▸ Except.ok.injEq .. ▸ h
          refine ⟨['*'], rfl, .sign .mul, fun d hd => ?_⟩
          cases rest with
          | nil => simp at hd
          | cons d' rest' =>
            obtain rfl : d' = d := by simpa using hd
            have hne : d' ≠ '*' := fun he => hrest rest' (by rw [he])
            simpa [goesOn] using hne
      · split at h
        · rename_i hl
          obtain ⟨rfl, rfl⟩ := Prod.mk.injEq .. ▸ Except.ok.injEq .. ▸ h
          rw [single?.eq_def] at hl
          split at hl <;> cases hl
          · exact ⟨_, rfl, .sign .add, fun _ _ => rfl⟩
          · exact ⟨_, rfl, .sign .sub, fun _ _ => rfl⟩
          · exact ⟨_, rfl, .sign .div, fun _ _ => rfl⟩
          · exact ⟨_, rfl, .sign .pow, fun _ _ => rfl⟩
          · exact ⟨_, rfl, .opening, fun _ _ => rfl⟩
          · exact ⟨_, rfl, .closing, fun _ _ => rfl⟩
          · exact ⟨_, rfl, .comma, fun _ _ => rfl⟩
        · cases h

/-- A lexeme of the lexicon that is as long as it can be is what `lexemeAt` returns. -/
theorem lexemeAt_of_spells {c : Char} {rest run after : List Char} {l : Lexeme}
    (h : c :: rest = run ++ after) (hs : Spells l run) (he : Ends l after) :
    lexemeAt c rest = .ok (l, after) := by
  cases hs with
  | number digits point ne_nil ne_point =>
    obtain ⟨d, ds, rfl⟩ := List.exists_cons_of_ne_nil ne_nil
    obtain ⟨rfl, rfl⟩ : c = d ∧ rest = ds ++ after := by simpa using h
    have hc : inNumber c = true := inNumber_eq_true_iff.2 (digits c (by simp))
    have hspan := span_append
      (fun x hx => inNumber_eq_true_iff.2 (digits x (List.mem_cons_of_mem _ hx))) he
    have hrun : isNumber (c :: ds) = true := by simp [isNumber, point, ne_point]
    rw [lexemeAt.eq_def, if_pos hc, hspan.1, hspan.2]
    exact if_pos hrun
  | name s =>
    obtain ⟨d, ds, hs, hn, hb, -, hds⟩ := spelling_chars s
    rw [hs] at h
    obtain ⟨rfl, rfl⟩ : c = d ∧ rest = ds ++ after := by simpa using h
    have hspan := span_append hds he
    have hrun : Symbol.ofSpelling? (String.ofList (c :: ds)) = some s := by
      rw [← hs, String.ofList_toList]
      exact Symbol.ofSpelling?_spelling s
    rw [lexemeAt.eq_def, if_neg (by simp [hn]), if_pos hb, hspan.1, hspan.2]
    simp only [hrun]
  | sign o =>
    cases o with
    | mul =>
      have hcons : c :: rest = '*' :: after := h
      obtain ⟨rfl, rfl⟩ : c = '*' ∧ rest = after := by simpa using hcons
      cases rest with
      | nil => rfl
      | cons d rest =>
        have hd : d ≠ '*' := by simpa [goesOn] using ends_cons.1 he
        have hstar : lexemeAt '*' (d :: rest) = .ok (.operator .mul, d :: rest) := by
          rw [lexemeAt.eq_def, if_neg (by decide), if_neg (by decide), if_pos (by decide)]
          split
          · rename_i heq
            exact absurd (List.cons.inj heq).1 hd
          · rfl
        exact hstar
    | add => cases h; rfl
    | sub => cases h; rfl
    | div => cases h; rfl
    | pow => cases h; rfl
  | stars => cases h; rfl
  | opening => cases h; rfl
  | closing => cases h; rfl
  | comma => cases h; rfl

/-- Either some lexeme of the lexicon stands at the beginning of a text or none does. -/
theorem foreign_of_lexemeAt {c : Char} {rest : List Char} {flaw : Flaw}
    (hb : Text.isBlank c = false) (h : lexemeAt c rest = .error flaw) : Foreign (c :: rest) := by
  refine ⟨⟨c, rest, rfl, hb⟩, fun l run after happ hs he => ?_⟩
  rw [lexemeAt_of_spells happ hs he] at h
  cases h

/-! ## Readings of a text -/

/-- From position `p` on, the text is tokens of the lexicon up to position `q`, with white space
among them, and `after` is what is left.  Each token ends where the text after it begins. -/
inductive Lexed : Nat → List Char → List Token → Nat → List Char → Prop
  | stop {p : Nat} {text : List Char} : Lexed p text [] p text
  | blank {p q : Nat} {c : Char} {rest after : List Char} {tokens : List Token}
      (hc : Text.isBlank c = true) (h : Lexed (p + 1) rest tokens q after) :
      Lexed p (c :: rest) tokens q after
  | lexeme {p q : Nat} {l : Lexeme} {run rest after : List Char} {tokens : List Token}
      (hs : Spells l run) (he : Ends l rest) (h : Lexed (p + run.length) rest tokens q after) :
      Lexed p (run ++ rest) (⟨l, p⟩ :: tokens) q after

/-- What is read and what is left are the text. -/
theorem Lexed.exists_append {p q : Nat} {text after : List Char} {tokens : List Token}
    (h : Lexed p text tokens q after) : ∃ read, text = read ++ after ∧ q = p + read.length := by
  induction h with
  | stop => exact ⟨[], rfl, rfl⟩
  | @blank p q c rest after tokens hc h ih =>
    obtain ⟨read, rfl, rfl⟩ := ih
    exact ⟨c :: read, rfl, by rw [List.length_cons]; omega⟩
  | @lexeme p q l run rest after tokens hs he h ih =>
    obtain ⟨read, rfl, rfl⟩ := ih
    exact ⟨run ++ read, by rw [List.append_assoc], by rw [List.length_append]; omega⟩

/-- **Reading never gets stuck inside the lexicon**: it goes on to the end of the text or to
something foreign. -/
theorem exists_lexed (p : Nat) (text : List Char) :
    ∃ tokens q after, Lexed p text tokens q after ∧ (after = [] ∨ Foreign after) := by
  induction hn : text.length using Nat.strongRecOn generalizing p text with
  | ind n ih =>
    cases text with
    | nil => exact ⟨[], p, [], .stop, .inl rfl⟩
    | cons c rest =>
      rw [List.length_cons] at hn
      cases hb : Text.isBlank c with
      | true =>
        obtain ⟨tokens, q, after, h, ha⟩ := ih rest.length (by omega) (p + 1) rest rfl
        exact ⟨tokens, q, after, .blank hb h, ha⟩
      | false =>
        cases hl : lexemeAt c rest with
        | error flaw => exact ⟨[], p, c :: rest, .stop, .inr (foreign_of_lexemeAt hb hl)⟩
        | ok found =>
          obtain ⟨l, next⟩ := found
          obtain ⟨run, happ, hs, he⟩ := spells_of_lexemeAt hl
          have hlen := length_after_le hl
          obtain ⟨tokens, q, after, h, ha⟩ := ih next.length (by omega) (p + run.length) next rfl
          exact ⟨⟨l, p⟩ :: tokens, q, after, happ ▸ .lexeme hs he h, ha⟩

/-! ## The loop -/

theorem scan_nil (p : Nat) : scan p [] = .ok [] := by
  rw [scan]

theorem scan_blank {p : Nat} {c : Char} {rest : List Char} (h : Text.isBlank c = true) :
    scan p (c :: rest) = scan (p + 1) rest := by
  rw [scan, if_pos h]

theorem scan_lexeme {p : Nat} {l : Lexeme} {run rest : List Char} (hs : Spells l run)
    (he : Ends l rest) :
    scan p (run ++ rest) = (scan (p + run.length) rest).map (⟨l, p⟩ :: ·) := by
  obtain ⟨c, tail, rfl, hb⟩ := hs.exists_head
  have hl : lexemeAt c (tail ++ rest) = .ok (l, rest) := lexemeAt_of_spells rfl hs he
  have hq : p + 1 + ((tail ++ rest).length - rest.length) = p + (c :: tail).length := by
    rw [List.length_append, List.length_cons]
    omega
  rw [List.cons_append, scan, if_neg (by simp [hb])]
  split
  · rename_i heq
    rw [heq] at hl
    cases hl
  · rename_i l' after heq
    obtain ⟨rfl, rfl⟩ : l' = l ∧ after = rest := by
      rw [heq] at hl
      exact Prod.mk.inj (Except.ok.inj hl)
    rw [hq]
    cases scan (p + (c :: tail).length) after with
    | error e => rfl
    | ok tokens => rfl

theorem scan_foreign {p : Nat} {text : List Char} (h : Foreign text) :
    ∃ e, scan p text = .error e ∧ e.position = some p := by
  obtain ⟨⟨c, rest, rfl, hb⟩, hno⟩ := h
  rw [scan, if_neg (by simp [hb])]
  split
  · exact ⟨_, rfl, rfl⟩
  · rename_i l after heq
    obtain ⟨run, happ, hs, he⟩ := spells_of_lexemeAt heq
    exact absurd he (hno l run after happ hs)

/-- **The loop follows every reading.** -/
theorem scan_of_lexed {p q : Nat} {text after : List Char} {tokens : List Token}
    (h : Lexed p text tokens q after) : scan p text = (scan q after).map (tokens ++ ·) := by
  induction h with
  | @stop p text => cases scan p text <;> rfl
  | blank hc h ih => rw [scan_blank hc, ih]
  | @lexeme p q l run rest after tokens hs he h ih =>
    rw [scan_lexeme hs he, ih]
    cases scan q after <;> rfl

/-- A text is read to its end as the tokens that the loop finds, and as no others. -/
theorem lexed_nil_iff_scan {p q : Nat} {text : List Char} {tokens : List Token} :
    Lexed p text tokens q [] ↔ scan p text = .ok tokens ∧ q = p + text.length := by
  constructor
  · intro h
    obtain ⟨read, happ, hq⟩ := h.exists_append
    rw [scan_of_lexed h, scan_nil]
    exact ⟨by simp [Except.map], by rw [hq, happ, List.append_nil]⟩
  · rintro ⟨h, hq⟩
    obtain ⟨ts, q', after, hl, rfl | hf⟩ := exists_lexed p text
    · obtain ⟨read, happ, hq'⟩ := hl.exists_append
      rw [scan_of_lexed hl, scan_nil] at h
      obtain rfl : ts = tokens := by simpa [Except.map] using h
      obtain rfl : q' = q := by rw [hq, hq', happ, List.append_nil]
      exact hl
    · obtain ⟨e, he, -⟩ := scan_foreign hf
      rw [scan_of_lexed hl, he] at h
      cases h

/-- A reading that comes to something foreign makes the loop fail there. -/
theorem scan_error_of_lexed {p q : Nat} {text after : List Char} {tokens : List Token}
    (h : Lexed p text tokens q after) (hf : Foreign after) :
    ∃ e, scan p text = .error e ∧ e.position = some q := by
  obtain ⟨e, he, hq⟩ := scan_foreign hf
  rw [scan_of_lexed h, he]
  exact ⟨e, rfl, hq⟩

/-- Where the loop fails, a reading comes to something foreign. -/
theorem lexed_of_scan_error {p : Nat} {text : List Char} {e : SyntaxError}
    (h : scan p text = .error e) :
    ∃ tokens q after, Lexed p text tokens q after ∧ Foreign after ∧ e.position = some q := by
  obtain ⟨tokens, q, after, hl, rfl | hf⟩ := exists_lexed p text
  · rw [(lexed_nil_iff_scan.1 hl).1] at h
    cases h
  · obtain ⟨e', he', hq⟩ := scan_error_of_lexed hl hf
    obtain rfl : e' = e := Except.error.inj (he'.symm.trans h)
    exact ⟨tokens, q, after, hl, hf, hq⟩

/-! ## Where the tokens stand -/

/-- The characters are a spelling of the token and stand at its position. -/
def Spelled (text : List Char) (t : Token) (run : List Char) : Prop :=
  Spells t.lexeme run ∧ run <+: text.drop t.position

/-- The tokens stand in the text one after another, and what is not part of a token is blank. -/
structure LaidOut (text : List Char) (tokens : List Token) : Prop where
  /-- Each token stands at its position, where only `^` may be written in another way. -/
  stands : ∀ t ∈ tokens, ∃ run, Spelled text t run ∧
    (run = t.lexeme.text.toList ∨ t.lexeme = .operator .pow ∧ run = ['*', '*'])
  /-- A token begins after those before it. -/
  increasing : tokens.Pairwise fun s t => s.position < t.position
  /-- Tokens do not overlap. -/
  apart : tokens.Pairwise fun s t => ∃ run, Spelled text s run ∧ s.position + run.length ≤ t.position
  /-- A character that is not blank belongs to a token. -/
  covered : ∀ i c, text[i]? = some c → Text.isBlank c = false →
    ∃ t ∈ tokens, ∃ run, Spelled text t run ∧ t.position ≤ i ∧ i < t.position + run.length

/-- Tokens stand at different positions. -/
theorem LaidOut.nodup_positions {text : List Char} {tokens : List Token} (h : LaidOut text tokens) :
    (tokens.map Token.position).Nodup := by
  rw [List.Nodup, List.pairwise_map]
  exact h.increasing.imp fun hlt => Nat.ne_of_lt hlt

theorem Spells.eq_text {l : Lexeme} {run : List Char} (h : Spells l run) :
    run = l.text.toList ∨ l = .operator .pow ∧ run = ['*', '*'] := by
  cases h with
  | number => exact .inl (by simp [Lexeme.text])
  | stars => exact .inr ⟨rfl, rfl⟩
  | name s => exact .inl rfl
  | sign o => exact .inl rfl
  | opening => exact .inl rfl
  | closing => exact .inl rfl
  | comma => exact .inl rfl

theorem Spells.length_pos {l : Lexeme} {run : List Char} (h : Spells l run) : 0 < run.length := by
  obtain ⟨c, rest, rfl, -⟩ := h.exists_head
  simp

/-- The tokens of a reading do not begin before it. -/
theorem Lexed.le_position {p q : Nat} {text after : List Char} {tokens : List Token}
    (h : Lexed p text tokens q after) : ∀ t ∈ tokens, p ≤ t.position := by
  induction h with
  | stop => intro t ht; simp at ht
  | blank _ _ ih => exact fun t ht => Nat.le_of_succ_le (ih t ht)
  | @lexeme p q l run rest after tokens hs he h ih =>
    intro t ht
    rcases List.mem_cons.1 ht with rfl | ht
    · exact Nat.le_refl _
    · exact (Nat.le_add_right _ _).trans (ih t ht)

section

variable {p q : Nat} {text after : List Char} {tokens : List Token}

theorem Lexed.spelled (h : Lexed p text tokens q after) :
    ∀ before : List Char, before.length = p →
      ∀ t ∈ tokens, ∃ run, Spelled (before ++ text) t run := by
  induction h with
  | stop => intro _ _ t ht; simp at ht
  | @blank p q c rest after tokens hc h ih =>
    intro before hp
    rw [List.append_cons]
    exact ih _ (by simp [hp])
  | @lexeme p q l run rest after tokens hs he h ih =>
    intro before hp t ht
    rcases List.mem_cons.1 ht with rfl | ht
    · exact ⟨run, hs, by simp [← hp]⟩
    · rw [← List.append_assoc]
      exact ih _ (by simp [hp]) t ht

theorem Lexed.apart (h : Lexed p text tokens q after) :
    ∀ before : List Char, before.length = p → tokens.Pairwise fun s t =>
      ∃ run, Spelled (before ++ text) s run ∧ s.position + run.length ≤ t.position := by
  induction h with
  | stop => intro _ _; exact .nil
  | @blank p q c rest after tokens hc h ih =>
    intro before hp
    rw [List.append_cons]
    exact ih _ (by simp [hp])
  | @lexeme p q l run rest after tokens hs he h ih =>
    intro before hp
    refine List.pairwise_cons.2 ⟨fun t ht => ⟨run, ⟨hs, by simp [← hp]⟩, h.le_position t ht⟩, ?_⟩
    rw [← List.append_assoc]
    exact ih _ (by simp [hp])

theorem Lexed.covered (h : Lexed p text tokens q after) :
    ∀ before : List Char, before.length = p → ∀ i c, p ≤ i → i < q →
      (before ++ text)[i]? = some c → Text.isBlank c = false →
        ∃ t ∈ tokens, ∃ run, Spelled (before ++ text) t run ∧
          t.position ≤ i ∧ i < t.position + run.length := by
  induction h with
  | stop => intro _ _ i c hi hq; omega
  | @blank p q c rest after tokens hc h ih =>
    intro before hp i d hi hq hd hb
    rcases Nat.eq_or_lt_of_le hi with rfl | hi
    · rw [List.getElem?_append_right (by omega)] at hd
      obtain rfl : c = d := by simpa [hp] using hd
      rw [hc] at hb
      cases hb
    · rw [List.append_cons] at hd ⊢
      exact ih _ (by simp [hp]) i d hi hq hd hb
  | @lexeme p q l run rest after tokens hs he h ih =>
    intro before hp i d hi hq hd hb
    rcases Nat.lt_or_ge i (p + run.length) with hlt | hge
    · exact ⟨⟨l, p⟩, by simp, run, ⟨hs, by simp [← hp]⟩, hi, hlt⟩
    · rw [← List.append_assoc] at hd ⊢
      obtain ⟨t, ht, hrun⟩ := ih _ (by simp [hp]) i d hge hq hd hb
      exact ⟨t, List.mem_cons_of_mem _ ht, hrun⟩

end

/-- **The tokens of a text that is read to its end are laid out in it.** -/
theorem Lexed.laidOut {text : List Char} {tokens : List Token} {q : Nat}
    (h : Lexed 0 text tokens q []) : LaidOut text tokens where
  stands := by
    intro t ht
    obtain ⟨run, hrun⟩ := h.spelled [] rfl t ht
    exact ⟨run, hrun, hrun.1.eq_text⟩
  increasing := by
    refine (h.apart [] rfl).imp fun ⟨run, hrun, hle⟩ => ?_
    have := hrun.1.length_pos
    omega
  apart := h.apart [] rfl
  covered := by
    intro i c hc hb
    obtain ⟨read, happ, hq⟩ := h.exists_append
    have hi : i < q := by
      rw [hq, Nat.zero_add, ← List.append_nil read, ← happ]
      exact (List.getElem?_eq_some_iff.1 hc).1
    exact h.covered [] rfl i c (Nat.zero_le _) hi hc hb

/-! ## The table of tokens -/

/-- The row of a token: the word for its kind, its text and its position.  A power has only one
spelling here. -/
inductive IsRow : Token → Token.Row → Prop
  | number (run : List Char) (p : Nat) :
      IsRow ⟨.number run, p⟩ ⟨"number", String.ofList run, p⟩
  | name (s : Symbol) (p : Nat) : IsRow ⟨.symbol s, p⟩ ⟨"ident", s.spelling, p⟩
  | operator (o : Operator) (p : Nat) : IsRow ⟨.operator o, p⟩ ⟨"op", o.sign, p⟩
  | opening (p : Nat) : IsRow ⟨.opening, p⟩ ⟨"lparen", "(", p⟩
  | closing (p : Nat) : IsRow ⟨.closing, p⟩ ⟨"rparen", ")", p⟩
  | comma (p : Nat) : IsRow ⟨.comma, p⟩ ⟨"comma", ",", p⟩

theorem isRow_row (t : Token) : IsRow t t.row := by
  obtain ⟨l, p⟩ := t
  cases l with
  | number run => exact .number run p
  | symbol s => exact .name s p
  | operator o => exact .operator o p
  | opening => exact .opening p
  | closing => exact .closing p
  | comma => exact .comma p

theorem forall₂_isRow (tokens : List Token) : List.Forall₂ IsRow tokens (tokens.map Token.row) :=
  List.forall₂_map_right_iff.2 (List.forall₂_same.2 fun t _ => isRow_row t)

theorem IsRow.kind_ne {t : Token} {row : Token.Row} (h : IsRow t row) : row.kind ≠ "eof" := by
  cases h <;> simp

/-- The lexer finds exactly the tokens of a reading to the end. -/
theorem tokenize_eq_ok_iff {text : List Char} {tokens : List Token} :
    tokenize text = .ok tokens ↔ Lexed 0 text tokens text.length [] := by
  rw [lexed_nil_iff_scan, tokenize, Nat.zero_add, and_iff_left rfl]

theorem tokenRows_eq_ok_iff {text : List Char} {rows : List Token.Row} :
    tokenRows text = .ok rows ↔
      ∃ tokens, Lexed 0 text tokens text.length [] ∧
        rows = tokens.map Token.row ++ [Token.endRow text.length] := by
  simp only [← tokenize_eq_ok_iff, tokenRows]
  cases tokenize text with
  | error e => simp [Except.map]
  | ok tokens => simp [Except.map, eq_comm]

theorem tokenRows_eq_error_iff {text : List Char} {e : SyntaxError} :
    tokenRows text = .error e ↔ scan 0 text = .error e := by
  rw [tokenRows, tokenize]
  cases scan 0 text <;> simp [Except.map]

end Lexer

open Lexer in
/-- **What the lexer reads and where it fails.**  A text has a table of tokens when it can be read
to its end.  There is one way to read it, its tokens are laid out in the text, and the table has
one more row, the last one, for the end; no other row looks like it.  Otherwise there is one place where the reading comes to
something foreign, and the error points there. -/
theorem tokenRows_characterised (text : List Char) :
    ((∃ rows, tokenRows text = .ok rows) ↔ ∃ tokens, Lexed 0 text tokens text.length []) ∧
      (∀ rows, tokenRows text = .ok rows →
        ∃ tokens, Lexed 0 text tokens text.length [] ∧
          (∀ tokens' q, Lexed 0 text tokens' q [] → tokens' = tokens) ∧ LaidOut text tokens ∧
          ∃ body, List.Forall₂ IsRow tokens body ∧ rows = body ++ [⟨"eof", "", text.length⟩] ∧
            ∀ row ∈ body, row.kind ≠ "eof") ∧
      ∀ e, tokenRows text = .error e →
        ∃ tokens q after, Lexed 0 text tokens q after ∧ Foreign after ∧ e.position = some q ∧
          ∀ tokens' q' after', Lexed 0 text tokens' q' after' → Foreign after' → q' = q := by
  refine ⟨⟨?_, ?_⟩, ?_, ?_⟩
  · rintro ⟨rows, h⟩
    obtain ⟨tokens, hl, -⟩ := tokenRows_eq_ok_iff.1 h
    exact ⟨tokens, hl⟩
  · rintro ⟨tokens, hl⟩
    exact ⟨_, tokenRows_eq_ok_iff.2 ⟨tokens, hl, rfl⟩⟩
  · intro rows h
    obtain ⟨tokens, hl, hrows⟩ := tokenRows_eq_ok_iff.1 h
    refine ⟨tokens, hl, fun tokens' q hl' => ?_, hl.laidOut, _, forall₂_isRow tokens, hrows, ?_⟩
    · have h1 := (lexed_nil_iff_scan.1 hl).1
      have h2 := (lexed_nil_iff_scan.1 hl').1
      exact Except.ok.inj (h2.symm.trans h1)
    · intro row hrow
      obtain ⟨t, -, rfl⟩ := List.mem_map.1 hrow
      exact (isRow_row t).kind_ne
  · intro e h
    have he := tokenRows_eq_error_iff.1 h
    obtain ⟨tokens, q, after, hl, hf, hq⟩ := lexed_of_scan_error he
    refine ⟨tokens, q, after, hl, hf, hq, fun tokens' q' after' hl' hf' => ?_⟩
    obtain ⟨e', he', hq'⟩ := scan_error_of_lexed hl' hf'
    obtain rfl : e' = e := Except.error.inj (he'.symm.trans he)
    exact Option.some.inj (hq'.symm.trans hq)

end SpaceCurve
