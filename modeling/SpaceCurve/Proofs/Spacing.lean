import SpaceCurve.Proofs.Substitution

/-!
# Spacing and spelling

White space in an equation means nothing, and neither does the choice between `^` and `**`.  A blank
may keep two lexemes apart, though: without it `1 2` is one number, `log 10` another function and
`* *` a power.  So this is no fact about the lexer.  It holds because no equation has such
neighbours.

## What is here

* `Neighbours l m` — in an equation, `m` may stand right after `l`.  `Derives.spans` is the analysis
  of the grammar: all neighbours in a phrase are of this kind.
* `Written lexemes text` — the text spells the lexemes, with white space among them.  Unlike in
  `Lexed`, no lexeme has to be as long as it can be; between neighbours it is so all the same
  (`Written.ends`), and `Written.exists_lexed` follows: what spells an equation is read as it.
* `Edit text text'` — a blank is deleted, or inserted where no token is cut, or a power operator
  is spelled in the other way.  `Reading.edit` is one edit, `Reading.edits` any number of them in
  any order.
-/

set_option autoImplicit false

namespace SpaceCurve

/-! ## Neighbours in an equation -/

namespace Lexeme

/-- Whether an operand may begin with the lexeme. -/
def beginsOperand : Lexeme → Bool
  | .number _ => true
  | .symbol _ => true
  | .opening => true
  | .operator .sub => true
  | _ => false

/-- Whether an operand may end with the lexeme. -/
def endsOperand : Lexeme → Bool
  | .number _ => true
  | .symbol .parameter => true
  | .symbol (.constant _) => true
  | .closing => true
  | _ => false

/-- Whether an operand must come after the lexeme. -/
def awaitsOperand : Lexeme → Bool
  | .operator _ => true
  | .opening => true
  | .comma => true
  | _ => false

/-- Whether the lexeme may come after an operand. -/
def followsOperand : Lexeme → Bool
  | .operator _ => true
  | .closing => true
  | .comma => true
  | _ => false

end Lexeme

/-- In an equation, the second lexeme may stand right after the first. -/
inductive Neighbours : Lexeme → Lexeme → Prop
  | called (f : Func) : Neighbours (.symbol (.function f)) .opening
  | operand {l m : Lexeme} (hl : l.awaitsOperand = true) (hm : m.beginsOperand = true) :
      Neighbours l m
  | sign {l m : Lexeme} (hl : l.endsOperand = true) (hm : m.followsOperand = true) :
      Neighbours l m

/-- The lexemes go from the beginning of an operand to the end of one, and may stand next to each
other as they do. -/
structure Spans (lexemes : List Lexeme) : Prop where
  chain : lexemes.IsChain Neighbours
  first : ∃ l, lexemes.head? = some l ∧ l.beginsOperand = true
  last : ∃ l, lexemes.getLast? = some l ∧ l.endsOperand = true

namespace Spans

variable {left right : List Lexeme} {l : Lexeme}

theorem single (hb : l.beginsOperand = true) (he : l.endsOperand = true) : Spans [l] :=
  ⟨.singleton l, ⟨l, rfl, hb⟩, ⟨l, rfl, he⟩⟩

/-- A lexeme that awaits an operand, and the operand. -/
theorem chain_cons (h : Spans right) (hl : l.awaitsOperand = true) :
    (l :: right).IsChain Neighbours := by
  obtain ⟨r, hr, hb⟩ := h.first
  refine List.isChain_cons.2 ⟨fun m hm => ?_, h.chain⟩
  obtain rfl : r = m := Option.some.inj (hr.symm.trans hm)
  exact .operand hl hb

theorem last_append (h : Spans right) (before : List Lexeme) :
    ∃ l, (before ++ right).getLast? = some l ∧ l.endsOperand = true := by
  obtain ⟨r, hr, he⟩ := h.last
  exact ⟨r, by rw [List.getLast?_append, hr]; rfl, he⟩

/-- Something that both follows an operand and awaits one joins two of them. -/
theorem join (hleft : Spans left) (hl : l.followsOperand = true) (hl' : l.awaitsOperand = true)
    (hright : Spans right) : Spans (left ++ l :: right) where
  chain := by
    obtain ⟨e, he, hends⟩ := hleft.last
    refine List.isChain_append.2 ⟨hleft.chain, hright.chain_cons hl', fun x hx y hy => ?_⟩
    obtain rfl : e = x := Option.some.inj (he.symm.trans hx)
    obtain rfl : l = y := Option.some.inj hy
    exact .sign hends hl
  first := by
    obtain ⟨b, hb, hbegins⟩ := hleft.first
    exact ⟨b, by rw [List.head?_append, hb]; rfl, hbegins⟩
  last := by
    rw [List.append_cons]
    exact hright.last_append _

theorem cons (hl : l.beginsOperand = true) (hl' : l.awaitsOperand = true) (h : Spans right) :
    Spans (l :: right) :=
  ⟨h.chain_cons hl', ⟨l, rfl, hl⟩, h.last_append [l]⟩

theorem call (f : Func) (h : Spans right) :
    Spans (.symbol (.function f) :: .opening :: right) := by
  refine ⟨List.isChain_cons.2 ⟨fun m hm => ?_, h.chain_cons rfl⟩, ⟨_, rfl, rfl⟩,
    h.last_append [_, _]⟩
  obtain rfl : Lexeme.opening = m := Option.some.inj hm
  exact .called f

theorem closed (h : Spans left) : Spans (left ++ [.closing]) where
  chain := by
    obtain ⟨e, he, hends⟩ := h.last
    refine List.isChain_append.2 ⟨h.chain, .singleton _, fun x hx y hy => ?_⟩
    obtain rfl : e = x := Option.some.inj (he.symm.trans hx)
    obtain rfl : Lexeme.closing = y := Option.some.inj hy
    exact .sign hends rfl
  first := by
    obtain ⟨b, hb, hbegins⟩ := h.first
    exact ⟨b, by rw [List.head?_append, hb]; rfl, hbegins⟩
  last := ⟨.closing, List.getLast?_concat, rfl⟩

end Spans

/-- **What stands next to what in an equation.** -/
theorem Derives.spans {p : Phrase} {d : Nat} {w : List Enclosed} {t : Tree}
    (h : Derives p d w t) : Spans (w.map Enclosed.lexeme) := by
  induction h with
  | ofTerm _ ih => exact ih
  | ofUnary _ ih => exact ih
  | ofPower _ ih => exact ih
  | ofPrimary _ ih => exact ih
  | sum _ _ _ ihl ihr => simpa using ihl.join rfl rfl ihr
  | product _ _ _ ihl ihr => simpa using ihl.join rfl rfl ihr
  | raised _ _ ihl ihr => simpa using ihl.join rfl rfl ihr
  | nextArgument _ _ ihl ihr => simpa using ihl.join rfl rfl ihr
  | minus _ ih => exact ih.cons rfl rfl
  | number => exact .single rfl rfl
  | parameter => exact .single rfl rfl
  | constant => exact .single rfl rfl
  | group _ ih => simpa using (ih.cons (l := .opening) rfl rfl).closed
  | firstArgument f _ ih => exact ih.call f
  | called _ _ ih => simpa using ih.closed

/-! ## Spellings without maximality -/

/-- What is blank does not continue a name. -/
theorem Text.continuesName_of_isBlank {c : Char} (h : Text.isBlank c = true) :
    Text.continuesName c = false := by
  have hcodes : ∀ n ∈ [0x09, 0x0a, 0x0b, 0x0c, 0x0d, 0x1c, 0x1d, 0x1e, 0x1f, 0x20, 0x85, 0xa0,
      0x1680, 0x2000, 0x2001, 0x2002, 0x2003, 0x2004, 0x2005, 0x2006, 0x2007, 0x2008, 0x2009,
      0x200a, 0x2028, 0x2029, 0x202f, 0x205f, 0x3000],
      Text.continuesName (Char.ofNat n) = false := by decide +kernel
  rw [← Char.ofNat_toNat c]
  refine hcodes _ ?_
  simp only [Text.isBlank, Bool.or_eq_true, Bool.and_eq_true, decide_eq_true_eq, beq_iff_eq] at h
  simp only [List.mem_cons, List.not_mem_nil, or_false]
  omega

namespace Lexer

/-- White space does not carry a lexeme on. -/
theorem goesOn_of_isBlank {c : Char} (h : Text.isBlank c = true) (l : Lexeme) :
    goesOn l c = false := by
  have hstar : c ≠ '*' := by
    rintro rfl
    exact absurd h (by decide)
  cases l with
  | number text =>
    refine Bool.eq_false_iff.2 fun hc => ?_
    rw [isBlank_of_inNumber hc] at h
    cases h
  | symbol s => exact Text.continuesName_of_isBlank h
  | operator o =>
    cases o with
    | mul => exact beq_false_of_ne hstar
    | _ => rfl
  | _ => rfl

/-- The spellings that are neither numbers nor names. -/
def signs : List (Lexeme × List Char) :=
  [(.operator .add, ['+']), (.operator .sub, ['-']), (.operator .mul, ['*']),
    (.operator .div, ['/']), (.operator .pow, ['^']), (.operator .pow, ['*', '*']),
    (.opening, ['(']), (.closing, [')']), (.comma, [','])]

/-- A character of a sign stands in no number and in no name, and is not blank. -/
theorem of_mem_signs {l : Lexeme} {run : List Char} {c : Char} (h : (l, run) ∈ signs)
    (hc : c ∈ run) :
    inNumber c = false ∧ Text.continuesName c = false ∧ Text.isBlank c = false := by
  have hall : ∀ x ∈ signs, (x.2.all fun d =>
      !inNumber d && !Text.continuesName d && !Text.isBlank d) = true := by
    decide
  have hc := List.all_eq_true.1 (hall _ h) c hc
  simp only [Bool.and_eq_true, Bool.not_eq_true'] at hc
  exact ⟨hc.1.1, hc.1.2, hc.2⟩

/-- What spells neither a number nor a name is a sign. -/
theorem Spells.sign_mem {l : Lexeme} {run : List Char} (h : Spells l run)
    (hnumber : ∀ text, l ≠ .number text) (hsymbol : ∀ s, l ≠ .symbol s) : (l, run) ∈ signs := by
  cases h with
  | number => exact absurd rfl (hnumber _)
  | name s => exact absurd rfl (hsymbol s)
  | sign o => cases o <;> simp [signs, Operator.sign]
  | _ => simp [signs]

/-- A character of a spelling is not blank. -/
theorem Spells.isBlank {l : Lexeme} {run : List Char} (h : Spells l run) :
    ∀ c ∈ run, Text.isBlank c = false := by
  intro c hc
  cases l with
  | number text =>
    cases h with
    | number digits => exact isBlank_of_inNumber (inNumber_eq_true_iff.2 (digits c hc))
  | symbol s =>
    cases h
    obtain ⟨d, rest, hs, -, -, hd, hrest⟩ := spelling_chars s
    rw [hs] at hc
    rcases List.mem_cons.1 hc with rfl | hc
    · exact hd
    · refine Bool.eq_false_iff.2 fun hb => ?_
      have hcontinues := hrest c hc
      rw [Text.continuesName_of_isBlank hb] at hcontinues
      cases hcontinues
  | _ => exact (of_mem_signs (h.sign_mem nofun nofun) hc).2.2

/-- A character that stands in no number and in no name belongs to a sign. -/
theorem Spells.mem_signs {l : Lexeme} {run : List Char} {c : Char} (h : Spells l run)
    (hc : c ∈ run) (hnumber : inNumber c = false) (hname : Text.continuesName c = false) :
    (l, run) ∈ signs := by
  refine h.sign_mem ?_ ?_
  · rintro text rfl
    cases h with
    | number digits =>
      rw [inNumber_eq_true_iff.2 (digits c hc)] at hnumber
      cases hnumber
  · rintro s rfl
    cases h
    obtain ⟨d, rest, hs, -, hd, -, hrest⟩ := spelling_chars s
    rw [hs] at hc
    rcases List.mem_cons.1 hc with rfl | hc
    · rw [Text.continuesName_of_beginsName hd] at hname
      cases hname
    · rw [hrest c hc] at hname
      cases hname

theorem Spells.of_caret {l : Lexeme} {run : List Char} (h : Spells l run) (hc : '^' ∈ run) :
    l = .operator .pow ∧ run = ['^'] := by
  have hcaret : ∀ x ∈ signs, '^' ∈ x.2 → x.1 = .operator .pow ∧ x.2 = ['^'] := by decide
  exact hcaret _ (h.mem_signs hc (by decide) (by decide)) hc

theorem Spells.of_star {l : Lexeme} {run : List Char} (h : Spells l run) (hc : '*' ∈ run) :
    l = .operator .mul ∧ run = ['*'] ∨ l = .operator .pow ∧ run = ['*', '*'] := by
  have hstar : ∀ x ∈ signs, '*' ∈ x.2 →
      x.1 = .operator .mul ∧ x.2 = ['*'] ∨ x.1 = .operator .pow ∧ x.2 = ['*', '*'] := by decide
  exact hstar _ (h.mem_signs hc (by decide) (by decide)) hc

/-- The text spells the lexemes one after another, with white space among them.  Where a lexeme
could go on into what follows, nothing is said about it. -/
inductive Written : List Lexeme → List Char → Prop
  | nil : Written [] []
  | blank {lexemes : List Lexeme} {c : Char} {text : List Char} (hc : Text.isBlank c = true)
      (h : Written lexemes text) : Written lexemes (c :: text)
  | lexeme {lexemes : List Lexeme} {l : Lexeme} {run text : List Char} (hs : Spells l run)
      (h : Written lexemes text) : Written (l :: lexemes) (run ++ text)

theorem Lexed.written {p q : Nat} {text : List Char} {tokens : List Token}
    (h : Lexed p text tokens q []) : Written (tokens.map Token.lexeme) text := by
  generalize hnil : ([] : List Char) = after at h
  induction h with
  | stop =>
    subst hnil
    exact .nil
  | blank hc _ ih => exact .blank hc (ih hnil)
  | lexeme hs _ _ ih => exact .lexeme hs (ih hnil)

/-- No lexeme runs together with a neighbour. -/
theorem goesOn_of_neighbours {l m : Lexeme} (h : Neighbours l m) {run rest : List Char} {c : Char}
    (hs : Spells m run) (hrun : run = c :: rest) : goesOn l c = false := by
  have hmem : c ∈ run := by simp [hrun]
  cases h with
  | called f =>
    cases hs
    obtain ⟨rfl, -⟩ := List.cons.inj hrun
    exact (goesOn_parenthesis _).1
  | operand hl hm =>
    -- of the lexemes that await an operand, only `*` could go on, and no operand begins with it
    have hstar : c ≠ '*' := by
      rintro rfl
      rcases hs.of_star hmem with ⟨rfl, -⟩ | ⟨rfl, -⟩ <;> cases hm
    cases l with
    | operator o =>
      cases o with
      | mul => exact beq_false_of_ne hstar
      | _ => rfl
    | number => cases hl
    | symbol => cases hl
    | _ => rfl
  | sign hl hm =>
    have hsign : (m, run) ∈ signs := hs.sign_mem (by rintro text rfl; cases hm)
      (by rintro s rfl; cases hm)
    obtain ⟨hnumber, hname, -⟩ := of_mem_signs hsign hmem
    cases l with
    | number => exact hnumber
    | symbol => exact hname
    | closing => rfl
    | operator => cases hl
    | opening => cases hl
    | comma => cases hl

/-- A lexeme ends where the spellings of its neighbours begin. -/
theorem Written.ends {l : Lexeme} {lexemes : List Lexeme} {text : List Char}
    (h : Written lexemes text) (hl : ∀ m ∈ lexemes.head?, Neighbours l m) : Ends l text := by
  cases h with
  | nil => exact fun c hc => by cases hc
  | blank hc _ => exact ends_cons.2 (goesOn_of_isBlank hc l)
  | lexeme hs _ =>
    obtain ⟨c, rest, rfl, -⟩ := hs.exists_head
    exact ends_cons.2 (goesOn_of_neighbours (hl _ rfl) hs rfl)

/-- **What spells neighbours is read as them.** -/
theorem Written.exists_lexed {lexemes : List Lexeme} {text : List Char}
    (h : Written lexemes text) (hchain : lexemes.IsChain Neighbours) (p : Nat) :
    ∃ tokens q, Lexed p text tokens q [] ∧ tokens.map Token.lexeme = lexemes := by
  induction h generalizing p with
  | nil => exact ⟨[], p, .stop, rfl⟩
  | blank hc _ ih =>
    obtain ⟨tokens, q, hread, hlexemes⟩ := ih hchain (p + 1)
    exact ⟨tokens, q, .blank hc hread, hlexemes⟩
  | @lexeme lexemes l run text hs h ih =>
    obtain ⟨hl, hchain⟩ := List.isChain_cons.1 hchain
    obtain ⟨tokens, q, hread, hlexemes⟩ := ih hchain (p + run.length)
    exact ⟨⟨l, p⟩ :: tokens, q, .lexeme hs (h.ends hl) hread, congrArg (l :: ·) hlexemes⟩

/-! ## Edits -/

/-- The position lies in no token of the text: each ends there or before, or begins there or
after. -/
def IsGap (text : List Char) (i : Nat) : Prop :=
  ∃ tokens, tokenize text = .ok tokens ∧
    ∀ t ∈ tokens, ∀ run, Spelled text t run → i ≤ t.position ∨ t.position + run.length ≤ i

/-- A change of spacing or spelling: one blank is deleted, or inserted outside of the tokens, or one
power operator is spelled in the other way. -/
inductive Edit : List Char → List Char → Prop
  | delete (left right : List Char) {c : Char} (hc : Text.isBlank c = true) :
      Edit (left ++ c :: right) (left ++ right)
  | insert (left right : List Char) {c : Char} (hc : Text.isBlank c = true)
      (hgap : IsGap (left ++ right) left.length) :
      Edit (left ++ right) (left ++ c :: right)
  | stars (left right : List Char) :
      Edit (left ++ '^' :: right) (left ++ '*' :: '*' :: right)
  | caret (left right : List Char) :
      Edit (left ++ '*' :: '*' :: right) (left ++ '^' :: right)

/-- Where a character of a text in two parts stands: in the second part or in the first. -/
theorem append_eq_append_cons {run text left right : List Char} {c : Char}
    (h : run ++ text = left ++ c :: right) :
    (∃ more, left = run ++ more ∧ text = more ++ c :: right) ∨
      ∃ more, run = left ++ c :: more ∧ right = more ++ text := by
  rcases List.append_eq_append_iff.1 h with ⟨more, hleft, htext⟩ | ⟨more, hrun, hright⟩
  · exact .inl ⟨more, hleft, htext⟩
  · rcases List.append_eq_cons_iff.1 hright.symm with ⟨rfl, htext⟩ | ⟨more, rfl, hright⟩
    · exact .inl ⟨[], by simpa using hrun.symm, htext⟩
    · obtain ⟨-, hright⟩ := List.cons.inj hright
      exact .inr ⟨more, hrun, hright⟩

variable {lexemes : List Lexeme} {left right : List Char} {c : Char}

theorem Written.delete (hc : Text.isBlank c = true)
    (h : Written lexemes (left ++ c :: right)) : Written lexemes (left ++ right) := by
  generalize htext : left ++ c :: right = text at h
  induction h generalizing left with
  | nil => simp at htext
  | blank hd h ih =>
    cases left with
    | nil =>
      obtain ⟨-, rfl⟩ := List.cons.inj htext
      exact h
    | cons d left =>
      obtain ⟨rfl, rfl⟩ := List.cons.inj htext
      exact .blank hd (ih rfl)
  | @lexeme lexemes l run text hs h ih =>
    rcases append_eq_append_cons htext.symm with ⟨more, rfl, rfl⟩ | ⟨more, rfl, -⟩
    · rw [List.append_assoc]
      exact .lexeme hs (ih rfl)
    · rw [hs.isBlank c (by simp)] at hc
      cases hc

theorem Written.stars (h : Written lexemes (left ++ '^' :: right)) :
    Written lexemes (left ++ '*' :: '*' :: right) := by
  generalize htext : left ++ '^' :: right = text at h
  induction h generalizing left with
  | nil => simp at htext
  | blank hd h ih =>
    cases left with
    | nil =>
      obtain ⟨rfl, -⟩ := List.cons.inj htext
      exact absurd hd (by decide)
    | cons d left =>
      obtain ⟨rfl, rfl⟩ := List.cons.inj htext
      exact .blank hd (ih rfl)
  | @lexeme lexemes l run text hs h ih =>
    rcases append_eq_append_cons htext.symm with ⟨more, rfl, rfl⟩ | ⟨more, rfl, rfl⟩
    · rw [List.append_assoc]
      exact .lexeme hs (ih rfl)
    · obtain ⟨rfl, hrun⟩ := hs.of_caret (by simp)
      obtain ⟨rfl, rfl⟩ : left = [] ∧ more = [] := by
        simpa [List.append_eq_singleton_iff] using hrun
      have hall := Written.lexeme Spells.stars h
      exact hall

/-- After an operator no star comes next. -/
theorem Written.not_star {o : Operator} {text : List Char}
    (hchain : (.operator o :: lexemes).IsChain Neighbours) :
    ¬ Written lexemes ('*' :: text) := by
  intro h
  have hnext : ∀ m ∈ lexemes.head?, m.beginsOperand = true := fun m hm => by
    cases (List.isChain_cons.1 hchain).1 m hm with
    | operand _ hm => exact hm
    | sign hl _ => cases hl
  generalize htext : '*' :: text = t at h
  cases h with
  | nil => cases htext
  | blank hc _ =>
    obtain ⟨rfl, -⟩ := List.cons.inj htext
    exact absurd hc (by decide)
  | lexeme hs _ =>
    obtain ⟨c, rest, rfl, -⟩ := hs.exists_head
    obtain ⟨rfl, -⟩ := List.cons.inj htext
    rcases hs.of_star (by simp) with ⟨rfl, -⟩ | ⟨rfl, -⟩ <;> exact absurd (hnext _ rfl) (by decide)

theorem Written.caret (hchain : lexemes.IsChain Neighbours)
    (h : Written lexemes (left ++ '*' :: '*' :: right)) :
    Written lexemes (left ++ '^' :: right) := by
  generalize htext : left ++ '*' :: '*' :: right = text at h
  induction h generalizing left with
  | nil => simp at htext
  | blank hd h ih =>
    cases left with
    | nil =>
      obtain ⟨rfl, -⟩ := List.cons.inj htext
      exact absurd hd (by decide)
    | cons d left =>
      obtain ⟨rfl, rfl⟩ := List.cons.inj htext
      exact .blank hd (ih hchain rfl)
  | @lexeme lexemes l run text hs h ih =>
    rcases append_eq_append_cons htext.symm with ⟨more, rfl, rfl⟩ | ⟨more, rfl, hright⟩
    · rw [List.append_assoc]
      exact .lexeme hs (ih (List.isChain_cons.1 hchain).2 rfl)
    · -- the first star is a token of its own or one half of a token; only the left half will do
      rcases hs.of_star (by simp) with ⟨rfl, hrun⟩ | ⟨rfl, hrun⟩
      · obtain ⟨rfl, rfl⟩ : left = [] ∧ more = [] := by
          simpa [List.append_eq_singleton_iff] using hrun
        obtain rfl : text = '*' :: right := by simpa using hright.symm
        exact absurd h (not_star hchain)
      · cases left with
        | nil =>
          obtain rfl : more = ['*'] := by simpa using hrun
          obtain rfl : right = text := by simpa using hright
          have hall := Written.lexeme (Spells.sign .pow) h
          exact hall
        | cons d left =>
          obtain ⟨rfl, rfl⟩ : left = [] ∧ more = [] := by
            have htail := (List.cons.inj hrun).2
            simpa [List.append_eq_singleton_iff] using htail
          obtain rfl : text = '*' :: right := by simpa using hright.symm
          exact absurd h (not_star hchain)

/-- A blank outside of the tokens does not change what they spell. -/
theorem Lexed.insert {p q : Nat} {tokens : List Token} (hc : Text.isBlank c = true)
    (h : Lexed p (left ++ right) tokens q []) (before : List Char) (hp : before.length = p)
    (hgap : ∀ t ∈ tokens, ∀ run, Spelled (before ++ (left ++ right)) t run →
      p + left.length ≤ t.position ∨ t.position + run.length ≤ p + left.length) :
    Written (tokens.map Token.lexeme) (left ++ c :: right) := by
  generalize htext : left ++ right = text at h hgap
  generalize hnil : ([] : List Char) = after at h
  induction h generalizing left before with
  | stop =>
    subst hnil
    obtain ⟨rfl, rfl⟩ := List.append_eq_nil_iff.1 htext
    exact .blank hc .nil
  | @blank p q d rest after tokens hd h ih =>
    cases left with
    | nil =>
      subst hnil htext
      exact .blank hc (.blank hd h.written)
    | cons d' left =>
      obtain ⟨rfl, rfl⟩ := List.cons.inj htext
      rw [List.append_cons, List.length_cons, Nat.add_comm left.length, ← Nat.add_assoc] at hgap
      exact .blank hd (ih _ (by simp [hp]) rfl hgap hnil)
  | @lexeme p q l run rest after tokens hs he h ih =>
    have hpos := hs.length_pos
    have hspelled : Spelled (before ++ (run ++ rest)) ⟨l, p⟩ run := ⟨hs, by simp [← hp]⟩
    rcases hgap ⟨l, p⟩ (by simp) run hspelled with hbefore | hbehind
    · obtain rfl : left = [] := List.eq_nil_of_length_eq_zero (Nat.add_left_cancel
        (Nat.le_antisymm hbefore (Nat.le_add_right p left.length)))
      subst hnil htext
      exact .blank hc (.lexeme hs h.written)
    · obtain ⟨more, rfl⟩ : ∃ more, left = run ++ more := by
        have hprefix : run <+: left ++ right := ⟨rest, htext.symm⟩
        obtain ⟨more, hmore⟩ := List.prefix_of_prefix_length_le hprefix
          (List.prefix_append left right) (Nat.le_of_add_le_add_left hbehind)
        exact ⟨more, hmore.symm⟩
      rw [List.append_assoc] at htext ⊢
      rw [← List.append_assoc, List.length_append, ← Nat.add_assoc] at hgap
      exact .lexeme hs (ih _ (by simp [hp]) (List.append_cancel_left htext)
        (fun t ht => hgap t (List.mem_cons_of_mem _ ht)) hnil)

/-- **An edit leaves alone what the text spells**, if its lexemes are neighbours. -/
theorem Edit.written {text text' : List Char} {tokens : List Token} (h : Edit text text')
    (htokens : tokenize text = .ok tokens)
    (hchain : (tokens.map Token.lexeme).IsChain Neighbours) :
    Written (tokens.map Token.lexeme) text' := by
  have hlexed := tokenize_eq_ok_iff.1 htokens
  cases h with
  | delete left right hc => exact hlexed.written.delete hc
  | stars left right => exact hlexed.written.stars
  | caret left right => exact hlexed.written.caret hchain
  | insert left right hc hgap =>
    obtain ⟨tokens', htokens', hgap⟩ := hgap
    obtain rfl : tokens = tokens' := Except.ok.inj (htokens.symm.trans htokens')
    exact hlexed.insert hc [] rfl (by simpa using hgap)

end Lexer

/-! ## Edits of equations -/

variable {text text' : List Char} {tree : Tree} {tokens : List Token} {w : List Enclosed}

/-- What is read as an equation is read as the same one after an edit. -/
theorem Reading.edit (h : Reading text tree tokens w) (hedit : Lexer.Edit text text') :
    ∃ tokens', Reading text' tree tokens' w := by
  have hchain : (tokens.map Token.lexeme).IsChain Neighbours :=
    h.lexemes_eq ▸ h.derives.spans.chain
  obtain ⟨tokens', q, hread, hlexemes⟩ :=
    (hedit.written h.tokens_eq hchain).exists_lexed hchain 0
  exact ⟨tokens', {
    tokens_eq := (Lexer.lexed_nil_iff_scan.1 hread).1
    lexemes_eq := h.lexemes_eq.trans hlexemes.symm
    derives := h.derives
    bounded := h.bounded }⟩

/-- So it is after any number of edits. -/
theorem Reading.edits (h : Reading text tree tokens w)
    (hedits : Relation.ReflTransGen Lexer.Edit text text') :
    ∃ tokens', Reading text' tree tokens' w := by
  induction hedits with
  | refl => exact ⟨tokens, h⟩
  | tail _ hedit ih =>
    obtain ⟨tokens', h'⟩ := ih
    exact h'.edit hedit

/-- **White space and the spelling of the power operator mean nothing in an equation.**  Delete
blanks of a text that parses, insert blanks outside of its tokens, write `**` for `^` and `^` for
`**`, as many of these and in any order: if the new text is not too long, it parses and has the
same tree, hence the same values. -/
theorem parse_edited {s s' : String} {e : Equation} (h : Equation.parse (.text s) = .ok e)
    (hedits : Relation.ReflTransGen Lexer.Edit s.toList s'.toList)
    (hlength : s'.toList.length ≤ 500) :
    ∃ e', Equation.parse (.text s') = .ok e' ∧ e'.root = e.root ∧
      (∀ t, e'.evaluate t = e.evaluate t) ∧ ∀ ts, e'.evaluateGrid ts = e.evaluateGrid ts := by
  obtain ⟨tokens, w, hreading⟩ := exists_reading h
  obtain ⟨tokens', hreading'⟩ := hreading.edits hedits
  exact ⟨_, parse_of_reading hreading' hlength, rfl, fun _ => rfl, fun _ => rfl⟩

/-- A blank between the two tokens of `-t` goes in, one between `^` and `2` goes out, and the power
gets its other spelling. -/
theorem parse_edited_square :
    ∃ e e', Equation.parse (.text "-t^ 2") = .ok e ∧ Equation.parse (.text "- t**2") = .ok e' ∧
      e'.root = e.root := by
  have hreading : Reading "-t^ 2".toList (.unary Lexicon.negation
      (.binary "^" (.parameter Symbol.parameterName) (.number (Numeral.decimal ['2']))))
      [⟨.operator .sub, 0⟩, ⟨.symbol .parameter, 1⟩, ⟨.operator .pow, 2⟩, ⟨.number ['2'], 4⟩]
      [⟨.operator .sub, 0⟩, ⟨.symbol .parameter, 1⟩, ⟨.operator .pow, 1⟩, ⟨.number ['2'], 2⟩] :=
    { tokens_eq := by decide +kernel
      lexemes_eq := rfl
      derives := .ofTerm (.ofUnary (.minus (.ofPower (.raised (.parameter 1)
        (.ofPower (.ofPrimary (.number 2 ['2'])))))))
      bounded := by simp [Bounded, Lexicon.maxDepth] }
  have hgap : Lexer.IsGap "-t^ 2".toList 1 := by
    refine ⟨_, hreading.tokens_eq, fun t ht run hrun => ?_⟩
    simp only [List.mem_cons, List.not_mem_nil, or_false] at ht
    rcases ht with rfl | rfl | rfl | rfl
    · obtain ⟨hspells, -⟩ := hrun
      cases hspells
      exact .inr (by decide)
    · exact .inl (by decide)
    · exact .inl (by decide)
    · exact .inl (by decide)
  have hedits : Relation.ReflTransGen Lexer.Edit "-t^ 2".toList "- t**2".toList :=
    .head (.insert ['-'] ['t', '^', ' ', '2'] (c := ' ') rfl hgap)
      (.head (.delete ['-', ' ', 't', '^'] ['2'] (c := ' ') rfl)
        (.single (.stars ['-', ' ', 't'] ['2'])))
  have hparse := parse_of_reading hreading (by decide)
  obtain ⟨e', he', hroot, -⟩ := parse_edited hparse hedits (by decide)
  exact ⟨_, e', hparse, he', hroot⟩

end SpaceCurve
