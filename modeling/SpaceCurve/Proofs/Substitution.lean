import SpaceCurve.Proofs.Grafting

/-!
# Substitution in the text of an equation

To put one equation in place of the parameter in another, write its text there, in parentheses.
This is done on characters, without looking at what stands around them, and
`parse_substitute` says that it is right all the same: the new text is an equation, its tree is the
old tree with the other one in place of the parameter, and if every parameter is replaced its values
are those of one equation at the values of the other.

There are two conditions, which are those of any equation: the new text must not be too long, and
the constructs around the parameter, the parentheses and the constructs inside must not be too many.

The text is where something could go wrong.  What is written in the place of a token might run
together with what is left and right of it; parentheses keep it apart, since no lexeme goes on with
one (`ends_of_parenthesis`), and a lexeme that is as long as it can be before `)` is so wherever it
stands.  The rest is about lexemes and trees, and `Grafting` has it.
-/

set_option autoImplicit false

namespace SpaceCurve

/-! ## Tokens of a text in a longer one -/

namespace Lexer

/-- No lexeme goes on with a parenthesis. -/
theorem goesOn_parenthesis (l : Lexeme) : goesOn l '(' = false ∧ goesOn l ')' = false := by
  cases l with
  | operator o => cases o <;> decide
  | _ => constructor <;> rfl

theorem ends_closing (l : Lexeme) (rest : List Char) : Ends l (')' :: rest) :=
  ends_cons.2 (goesOn_parenthesis l).2

/-- A text reads the same at another position, and with a parenthesis after it. -/
theorem Lexed.embed {p q : Nat} {text : List Char} {tokens : List Token}
    (h : Lexed p text tokens q []) (rest : List Char) (p' : Nat) :
    ∃ tokens' q', Lexed p' (text ++ ')' :: rest) tokens' q' (')' :: rest) ∧
      tokens'.map Token.lexeme = tokens.map Token.lexeme := by
  generalize hnil : ([] : List Char) = after at h
  induction h generalizing p' with
  | stop =>
    subst hnil
    exact ⟨[], p', .stop, rfl⟩
  | blank hc _ ih =>
    obtain ⟨tokens', q', hread, hlexemes⟩ := ih (p' + 1) hnil
    exact ⟨tokens', q', .blank hc hread, hlexemes⟩
  | @lexeme p q l run tail after tokens hs he h ih =>
    obtain ⟨tokens', q', hread, hlexemes⟩ := ih (p' + run.length) hnil
    refine ⟨⟨l, p'⟩ :: tokens', q', ?_, congrArg (l :: ·) hlexemes⟩
    rw [List.append_assoc]
    refine .lexeme hs ?_ hread
    cases tail with
    | nil => exact ends_closing l rest
    | cons c tail => exact ends_cons.2 (ends_cons.1 he)

/-- Two readings, one after the other. -/
theorem Lexed.trans {p q q' : Nat} {text middle after : List Char} {tokens tokens' : List Token}
    (h : Lexed p text tokens q middle) (h' : Lexed q middle tokens' q' after) :
    Lexed p text (tokens ++ tokens') q' after := by
  induction h with
  | stop => exact h'
  | blank hc _ ih => exact .blank hc (ih h')
  | lexeme hs he _ ih => exact .lexeme hs he (ih h')

/-- A text that has tokens is not blank. -/
theorem Lexed.strip_ne_nil {p q : Nat} {text after : List Char} {tokens : List Token}
    (h : Lexed p text tokens q after) (htokens : tokens ≠ []) : Text.strip text ≠ [] := by
  rw [Ne, Text.strip_eq_nil_iff]
  induction h with
  | stop => exact absurd rfl htokens
  | blank _ _ ih => exact fun hall => ih htokens fun c hc => hall c (List.mem_cons_of_mem _ hc)
  | lexeme hs =>
    obtain ⟨c, run, rfl, hc⟩ := hs.exists_head
    intro hall
    rw [hall c (by simp)] at hc
    cases hc

/-! ## Substitution -/

/-- The text with another one in parentheses at some places; its first character stands at `p`. -/
def substitute (places : Nat → Bool) (other : List Char) (p : Nat) : List Char → List Char
  | [] => []
  | c :: rest =>
    (if places p then '(' :: other ++ [')'] else [c]) ++ substitute places other (p + 1) rest

variable {places : Nat → Bool} {other : List Char}

theorem substitute_append (p : Nat) (left right : List Char) :
    substitute places other p (left ++ right) =
      substitute places other p left ++ substitute places other (p + left.length) right := by
  induction left generalizing p with
  | nil => rfl
  | cons c left ih =>
    rw [List.cons_append, substitute, ih, substitute, List.append_assoc, List.length_cons,
      Nat.add_assoc, Nat.add_comm 1]

/-- Where there is no place, nothing changes. -/
theorem substitute_eq_self {p : Nat} {text : List Char}
    (h : ∀ i, p ≤ i → i < p + text.length → places i = false) :
    substitute places other p text = text := by
  induction text generalizing p with
  | nil => rfl
  | cons c rest ih =>
    rw [List.length_cons] at h
    rw [substitute, h p (Nat.le_refl p) (by omega), ih fun i hi hlt => h i (by omega) (by omega)]
    rfl

/-- At a single place, the text is cut in two there. -/
theorem substitute_single {text : List Char} {position : Nat} (h : position < text.length) :
    substitute (fun i => i == position) other 0 text =
      text.take position ++ '(' :: other ++ ')' :: text.drop (position + 1) := by
  have hleft : (text.take position).length = position := by
    rw [List.length_take]
    omega
  have hcut : text = text.take position ++ text[position] :: text.drop (position + 1) := by
    rw [← List.drop_eq_getElem_cons h, List.take_append_drop]
  have hbefore : substitute (fun i => i == position) other 0 (text.take position) =
      text.take position :=
    substitute_eq_self fun i _ hi => beq_false_of_ne (by omega)
  have hafter : substitute (fun i => i == position) other (position + 1)
      (text.drop (position + 1)) = text.drop (position + 1) :=
    substitute_eq_self fun i hi _ => beq_false_of_ne (by omega)
  calc substitute (fun i => i == position) other 0 text
      = substitute (fun i => i == position) other 0
          (text.take position ++ text[position] :: text.drop (position + 1)) := congrArg _ hcut
    _ = text.take position ++ '(' :: other ++ ')' :: text.drop (position + 1) := by
      rw [substitute_append, hbefore, hleft, Nat.zero_add, substitute, hafter]
      simp

/-- What is substituted in a text does not carry on the lexeme before it. -/
theorem ends_substitute {l : Lexeme} {rest : List Char} (h : Ends l rest) (p : Nat) :
    Ends l (substitute places other p rest) := by
  cases rest with
  | nil => exact h
  | cons c rest =>
    rw [substitute]
    split
    · exact ends_cons.2 (goesOn_parenthesis l).1
    · exact ends_cons.2 (ends_cons.1 h)

/-- The lexemes that a token gives way to. -/
def replaced (places : Nat → Bool) (inner : List Lexeme) (t : Token) : List Lexeme :=
  if places t.position then .opening :: inner ++ [.closing] else [t.lexeme]

theorem run_of_spells_parameter {run : List Char} (h : Spells (.symbol .parameter) run) :
    run = ['t'] := by
  cases h
  rfl

/-- **Substitution at tokens that are the parameter replaces these tokens** and leaves the others
alone. -/
theorem Lexed.substitute {p q q₀ : Nat} {text : List Char} {tokens inner : List Token}
    (h : Lexed p text tokens q [])
    (hplaces : ∀ i, p ≤ i → places i = true → ⟨.symbol .parameter, i⟩ ∈ tokens)
    (hother : Lexed 0 other inner q₀ []) (p' : Nat) :
    ∃ tokens' q', Lexed p' (substitute places other p text) tokens' q' [] ∧
      tokens'.map Token.lexeme = tokens.flatMap (replaced places (inner.map Token.lexeme)) := by
  generalize hnil : ([] : List Char) = after at h
  induction h generalizing p' with
  | stop =>
    subst hnil
    exact ⟨[], p', .stop, rfl⟩
  | @blank p q c rest after tokens hc h ih =>
    have hnone : places p = false := by
      refine Bool.eq_false_iff.2 fun hp => ?_
      have hle := h.le_position _ (hplaces p (Nat.le_refl p) hp)
      exact absurd hle (Nat.not_succ_le_self p)
    obtain ⟨tokens', q', hread, hlexemes⟩ :=
      ih (fun i hi => hplaces i (by omega)) (p' + 1) hnil
    rw [Lexer.substitute, hnone]
    exact ⟨tokens', q', .blank hc hread, hlexemes⟩
  | @lexeme p q l run rest after tokens hs he h ih =>
    have hpos := hs.length_pos
    -- a place inside the token or after it belongs to a later token
    have hlater : ∀ i, p < i → places i = true → ⟨.symbol .parameter, i⟩ ∈ tokens := by
      intro i hi hplace
      rcases List.mem_cons.1 (hplaces i (by omega) hplace) with heq | hmem
      · exact absurd (Token.mk.inj heq).2 (by omega)
      · exact hmem
    have hrest := fun m => ih (fun i hi => hlater i (by omega)) m hnil
    rw [substitute_append, List.flatMap_cons, replaced]
    split
    · next hplace =>
      have hl : l = .symbol .parameter := by
        rcases List.mem_cons.1 (hplaces p (Nat.le_refl p) hplace) with heq | hmem
        · exact (Token.mk.inj heq).1.symm
        · exact absurd (h.le_position _ hmem) (by simp only; omega)
      subst hl
      obtain rfl := run_of_spells_parameter hs
      obtain ⟨middle, m, hmiddle, hinner⟩ := hother.embed
        (Lexer.substitute places other (p + ['t'].length) rest) (p' + 1)
      obtain ⟨tokens', q', hread, hlexemes⟩ := hrest (m + 1)
      refine ⟨⟨.opening, p'⟩ :: (middle ++ ⟨.closing, m⟩ :: tokens'), q', ?_, ?_⟩
      · have hall := Lexed.lexeme (p := p') Spells.opening (fun _ _ => rfl)
          (hmiddle.trans (.lexeme .closing (fun _ _ => rfl) hread))
        simpa [Lexer.substitute, hplace] using hall
      · simp [hinner, hlexemes]
    · next hplace =>
      have hsame : Lexer.substitute places other p run = run := by
        refine substitute_eq_self fun i hi hlt => Bool.eq_false_iff.2 fun hp => ?_
        rcases Nat.eq_or_lt_of_le hi with rfl | hlt'
        · exact hplace hp
        · exact absurd (h.le_position _ (hlater i hlt' hp)) (by simp only; omega)
      obtain ⟨tokens', q', hread, hlexemes⟩ := hrest (p' + run.length)
      rw [hsame]
      exact ⟨⟨l, p'⟩ :: tokens', q', .lexeme hs (ends_substitute he _) hread,
        congrArg (l :: ·) hlexemes⟩

end Lexer

/-! ## Readings of an equation -/

/-- Whether the token is the parameter. -/
def Token.isParameter (t : Token) : Bool := t.lexeme == .symbol .parameter

/-- How a text is read as an equation: as these tokens, whose lexemes the grammar derives in this
way with this tree. -/
structure Reading (text : List Char) (tree : Tree) (tokens : List Token) (w : List Enclosed) :
    Prop where
  tokens_eq : tokenize text = .ok tokens
  lexemes_eq : w.map Enclosed.lexeme = tokens.map Token.lexeme
  derives : Derives .expression 0 w tree
  bounded : Bounded Lexicon.maxDepth w

theorem exists_reading {s : String} {e : Equation} (h : Equation.parse (.text s) = .ok e) :
    ∃ tokens w, Reading s.toList e.root tokens w := by
  obtain ⟨_, tokens, hs, -, htokens, w, hw, hderives, hbounded⟩ := exists_sentence_of_parse h
  cases hs
  exact ⟨tokens, w, htokens, hw, hderives, hbounded⟩

/-- A text that can be read as an equation parses, if it is not too long. -/
theorem parse_of_reading {s : String} {tree : Tree} {tokens : List Token} {w : List Enclosed}
    (h : Reading s.toList tree tokens w) (hlength : s.toList.length ≤ Lexicon.maxLength) :
    Equation.parse (.text s) = .ok ⟨s, tree⟩ := by
  have hne : tokens ≠ [] := by
    rintro rfl
    obtain ⟨x, rest, rfl, -⟩ := h.derives.exists_head
    cases h.lexemes_eq
  have hstrip := (Lexer.tokenize_eq_ok_iff.1 h.tokens_eq).strip_ne_nil hne
  have htext : parseText s.toList = .ok tree := parseText_eq_ok_iff.2
    ⟨hlength, hstrip, tokens, h.tokens_eq, w, h.lexemes_eq, h.derives, h.bounded⟩
  rw [Equation.parse, htext]
  rfl

/-- The tokens of an equation stand at different positions. -/
theorem Reading.nodup_positions {text : List Char} {tree : Tree} {tokens : List Token}
    {w : List Enclosed} (h : Reading text tree tokens w) : (tokens.map Token.position).Nodup :=
  (Lexer.tokenize_eq_ok_iff.1 h.tokens_eq).laidOut.nodup_positions

/-! ## Equations in the text of equations -/

section

variable {places : Nat → Bool} {chosen : Nat → Bool}

/-- The lexemes that are planted are those of the tokens that replace the parameters. -/
theorem map_lexeme_plant {tokens : List Token} {v w : List Enclosed} {k : Nat}
    (hw : w.map Enclosed.lexeme = tokens.map Token.lexeme)
    (hplaces : ∀ t ∈ tokens, places t.position = true → t.isParameter = true)
    (hchosen : ∀ m t, (tokens.filter Token.isParameter)[m]? = some t →
      chosen (k + m) = places t.position) :
    (plant chosen v k w).map Enclosed.lexeme =
      tokens.flatMap (Lexer.replaced places (v.map Enclosed.lexeme)) := by
  induction tokens generalizing w k with
  | nil =>
    rw [List.map_eq_nil_iff.1 hw]
    rfl
  | cons t tokens ih =>
    obtain ⟨x, rest, rfl, hx, hrest⟩ := List.map_eq_cons_iff.1 hw
    have hsame : x.isParameter = t.isParameter := by
      rw [Enclosed.isParameter, hx, Token.isParameter]
    have hlater := fun s hs => hplaces s (List.mem_cons_of_mem _ hs)
    rw [plant, List.flatMap_cons, Lexer.replaced, hsame]
    split
    · next hparameter =>
      rw [List.filter_cons_of_pos hparameter] at hchosen
      have htail := ih (k := k + 1) hrest hlater fun m s hs => by
        rw [Nat.add_assoc, Nat.add_comm 1]
        exact hchosen (m + 1) s hs
      rw [List.map_append, htail, ← hchosen 0 t rfl, Nat.add_zero]
      congr 1
      split
      · simp only [grouped, List.map_append, List.map_cons, List.map_map, List.map_nil]
        rfl
      · rw [List.map_cons, hx, List.map_nil]
    · next hparameter =>
      rw [List.filter_cons_of_neg hparameter] at hchosen
      have hnone : ¬ places t.position = true := fun h => hparameter (hplaces t (by simp) h)
      rw [List.map_cons, ih hrest hlater hchosen, if_neg hnone, hx]
      rfl

/-- **Substitution in the text of an equation is substitution in its tree.** -/
theorem Reading.substitute {text other : List Char} {tree r : Tree} {tokens inner : List Token}
    {v w : List Enclosed} {n : Nat} (h : Reading text tree tokens w)
    (hother : Reading other r inner v)
    (hplaces : ∀ i, places i = true → ⟨.symbol .parameter, i⟩ ∈ tokens)
    (hchosen : ∀ m t, (tokens.filter Token.isParameter)[m]? = some t →
      chosen m = places t.position)
    (hn : Bounded n v) (hdepth : ∀ m x, (w.filter Enclosed.isParameter)[m]? = some x →
      chosen m = true → x.depth + 1 + n ≤ Lexicon.maxDepth) :
    ∃ tokens', Reading (Lexer.substitute places other 0 text) (tree.graft chosen r 0) tokens'
      (plant chosen v 0 w) := by
  have hlexed := Lexer.tokenize_eq_ok_iff.1 h.tokens_eq
  obtain ⟨tokens', q, hread, hlexemes⟩ := hlexed.substitute (fun i _ => hplaces i)
    (Lexer.tokenize_eq_ok_iff.1 hother.tokens_eq) 0
  have hparameter : ∀ t ∈ tokens, places t.position = true → t.isParameter = true := by
    intro t ht hplace
    have hsame : t = ⟨.symbol .parameter, t.position⟩ :=
      List.inj_on_of_nodup_map h.nodup_positions ht (hplaces _ hplace) rfl
    rw [hsame]
    rfl
  have hsame : ∀ m t, (tokens.filter Token.isParameter)[m]? = some t →
      chosen (0 + m) = places t.position := by
    intro m t ht
    rw [Nat.zero_add]
    exact hchosen m t ht
  refine ⟨tokens', (Lexer.lexed_nil_iff_scan.1 hread).1, ?_,
    derives_plant hother.derives h.derives 0,
    bounded_plant h.bounded hn fun m x hx hm => hdepth m x hx (by rwa [Nat.zero_add] at hm)⟩
  rw [map_lexeme_plant h.lexemes_eq hparameter hsame, hlexemes, hother.lexemes_eq]

end

/-! ## One parameter and all of them -/

section

variable {s r s' : String} {tree other : Tree} {tokens inner : List Token} {w v : List Enclosed}
  {n : Nat}

theorem Reading.eq_parameter {t : Token} (ht : t ∈ tokens.filter Token.isParameter) :
    t ∈ tokens ∧ t = ⟨.symbol .parameter, t.position⟩ := by
  obtain ⟨hmem, hparameter⟩ := List.mem_filter.1 ht
  exact ⟨hmem, by rw [← eq_of_beq hparameter]⟩

/-- The text with one parameter replaced parses. -/
theorem Reading.parse_single (h : Reading s.toList tree tokens w)
    (hother : Reading r.toList other inner v) (hn : Bounded n v) {m : Nat} {t : Token}
    {x : Enclosed} (ht : (tokens.filter Token.isParameter)[m]? = some t)
    (hx : (w.filter Enclosed.isParameter)[m]? = some x)
    (hdepth : x.depth + 1 + n ≤ Lexicon.maxDepth)
    (hs' : s'.toList = s.toList.take t.position ++
      '(' :: r.toList ++ ')' :: s.toList.drop (t.position + 1))
    (hlength : s'.toList.length ≤ Lexicon.maxLength) :
    Equation.parse (.text s') = .ok ⟨s', tree.graft (fun k => k == m) other 0⟩ := by
  obtain ⟨hmem, htoken⟩ := eq_parameter (List.mem_of_getElem? ht)
  have hlaidOut := (Lexer.tokenize_eq_ok_iff.1 h.tokens_eq).laidOut
  have hposition : t.position < s.toList.length := by
    obtain ⟨run, ⟨hspells, hstands⟩, -⟩ := hlaidOut.stands t hmem
    have hle := hstands.length_le
    have hpos := hspells.length_pos
    rw [List.length_drop] at hle
    omega
  have hplaces : ∀ i, (i == t.position) = true → ⟨.symbol .parameter, i⟩ ∈ tokens := by
    intro i hi
    rw [eq_of_beq hi, ← htoken]
    exact hmem
  have hchosen : ∀ m' t', (tokens.filter Token.isParameter)[m']? = some t' →
      (m' == m) = (t'.position == t.position) := by
    intro m' t' ht'
    rw [Bool.eq_iff_iff, beq_iff_eq, beq_iff_eq]
    constructor
    · rintro rfl
      rw [Option.some.inj (ht'.symm.trans ht)]
    · intro hsame
      -- the parameters are sorted by their positions, so one position has one number
      have hnodup : ((tokens.filter Token.isParameter).map Token.position).Nodup :=
        h.nodup_positions.sublist (List.filter_sublist.map _)
      obtain ⟨hlt, -⟩ := List.getElem?_eq_some_iff.1 ht'
      refine (List.getElem?_inj (by rwa [List.length_map]) hnodup).1 ?_
      rw [List.getElem?_map, List.getElem?_map, ht', ht, Option.map_some, hsame, Option.map_some]
  obtain ⟨tokens', hreading⟩ := h.substitute hother hplaces hchosen hn fun m' x' hx' hm' => by
    rw [eq_of_beq hm', hx] at hx'
    rwa [← Option.some.inj hx']
  rw [Lexer.substitute_single hposition, ← hs'] at hreading
  exact parse_of_reading hreading hlength

/-- The text with all parameters replaced parses. -/
theorem Reading.parse_all (h : Reading s.toList tree tokens w)
    (hother : Reading r.toList other inner v) (hn : Bounded n v)
    (hdepth : ∀ x ∈ w, x.isParameter = true → x.depth + 1 + n ≤ Lexicon.maxDepth)
    (hs' : s'.toList = Lexer.substitute
      (fun i => tokens.contains ⟨.symbol .parameter, i⟩) r.toList 0 s.toList)
    (hlength : s'.toList.length ≤ Lexicon.maxLength) :
    Equation.parse (.text s') = .ok ⟨s', tree.graft (fun _ => true) other 0⟩ := by
  have hchosen : ∀ (m : Nat) (t : Token), (tokens.filter Token.isParameter)[m]? = some t →
      (fun _ : Nat => true) m = tokens.contains ⟨.symbol .parameter, t.position⟩ := by
    intro m t ht
    obtain ⟨hmem, htoken⟩ := eq_parameter (List.mem_of_getElem? ht)
    rw [← htoken]
    exact (List.contains_iff_mem.2 hmem).symm
  have hplaces : ∀ i, tokens.contains ⟨.symbol .parameter, i⟩ = true →
      ⟨.symbol .parameter, i⟩ ∈ tokens := fun _ => List.contains_iff_mem.1
  obtain ⟨tokens', hreading⟩ := h.substitute hother hplaces hchosen hn fun m x hx _ => by
    obtain ⟨hmem, hparameter⟩ := List.mem_filter.1 (List.mem_of_getElem? hx)
    exact hdepth x hmem hparameter
  rw [← hs'] at hreading
  exact parse_of_reading hreading hlength

end

/-- With one equation in place of every parameter of another, the values are those of the other at
the values of the one. -/
theorem evaluate_graft {s r : Value} {es er e : Equation} (hs : Equation.parse s = .ok es)
    (hr : Equation.parse r = .ok er) (he : e.root = es.root.graft (fun _ => true) er.root 0)
    (u : Float) :
    ∃ y z, er.evaluate (.real u) = .ok y ∧ es.evaluate (.real y) = .ok z ∧
      e.evaluate (.real u) = .ok z := by
  have hprogram : ∀ {e : Equation} {p : Program}, e.root.resolve = .ok p → e.program = .ok p :=
    fun h => by rw [Equation.program, h]; rfl
  obtain ⟨inner, hinner, hinnerTotal⟩ := (proper_of_parse hr).exists_program
  obtain ⟨y, hy⟩ := hinnerTotal true u
  obtain ⟨p, q, hp, hq, hvalue⟩ := (proper_of_parse hs).eval_graft hinner hy 0
  obtain ⟨outer, houter, houterTotal⟩ := (proper_of_parse hs).exists_program
  obtain rfl : outer = p := Except.ok.inj (houter.symm.trans hp)
  obtain ⟨z, hz⟩ := houterTotal true y
  rw [← he] at hq
  exact ⟨y, z, Equation.evaluate_real (hprogram hinner) hy,
    Equation.evaluate_real (hprogram hp) hz,
    Equation.evaluate_real (hprogram hq) (hvalue.trans hz)⟩

/-- **Substitution in the text of an equation is substitution in its tree, and composition of its
values.**  Two equations that parse can be read as tokens that the grammar derives.  In any such
readings, let the constructs around a parameter of the first equation, a pair of parentheses and the
constructs inside the second one be no more than 64.

* If the text with the second equation in parentheses in place of that parameter has at most 500
  characters, it is an equation, and its tree is the tree of the first one in which that leaf has
  given way to the tree of the second.
* If this is so for every parameter, and the text with all of them replaced has at most 500
  characters, it is an equation.  At every real parameter, the second equation has a value, the
  first one has a value at that value, and this is the value of the new equation. -/
theorem parse_substituted {s r : String} {es er : Equation}
    (hs : Equation.parse (.text s) = .ok es) (hr : Equation.parse (.text r) = .ok er) :
    (∃ tokens w, Reading s.toList es.root tokens w) ∧
    (∃ inner v, Reading r.toList er.root inner v) ∧
    ∀ (tokens inner : List Token) (w v : List Enclosed) (n : Nat),
      Reading s.toList es.root tokens w → Reading r.toList er.root inner v → Bounded n v →
      (∀ (m : Nat) (t : Token) (x : Enclosed), (tokens.filter Token.isParameter)[m]? = some t →
        (w.filter Enclosed.isParameter)[m]? = some x → x.depth + 1 + n ≤ 64 →
        ∀ s' : String, s'.toList = s.toList.take t.position ++
            '(' :: r.toList ++ ')' :: s.toList.drop (t.position + 1) → s'.toList.length ≤ 500 →
          Equation.parse (.text s') = .ok ⟨s', es.root.graft (fun k => k == m) er.root 0⟩) ∧
      ((∀ x ∈ w, x.isParameter = true → x.depth + 1 + n ≤ 64) →
        ∀ s' : String, s'.toList = Lexer.substitute
            (fun i => tokens.contains ⟨.symbol .parameter, i⟩) r.toList 0 s.toList →
          s'.toList.length ≤ 500 →
          ∃ e, Equation.parse (.text s') = .ok e ∧
            e.root = es.root.graft (fun _ => true) er.root 0 ∧
            ∀ u : Float, ∃ y z, er.evaluate (.real u) = .ok y ∧ es.evaluate (.real y) = .ok z ∧
              e.evaluate (.real u) = .ok z) := by
  refine ⟨exists_reading hs, exists_reading hr, fun tokens inner w v n h hother hn => ⟨?_, ?_⟩⟩
  · intro m t x ht hx hdepth s' hs' hlength
    exact h.parse_single hother hn ht hx hdepth hs' hlength
  · intro hdepth s' hs' hlength
    exact ⟨_, h.parse_all hother hn hdepth hs' hlength, rfl, evaluate_graft hs hr rfl⟩

/-- The tree of a minus sign and the parameter. -/
def opposite : Tree := .unary Lexicon.negation (.parameter Symbol.parameterName)

/-- The square of the parameter, with `-t` in place of its second factor and of both. -/
theorem parse_substituted_square :
    ∃ es er e, Equation.parse (.text "t*t") = .ok es ∧ Equation.parse (.text "-t") = .ok er ∧
      Equation.parse (.text "t*(-t)") =
        .ok ⟨"t*(-t)", .binary "*" (.parameter Symbol.parameterName) opposite⟩ ∧
      Equation.parse (.text "(-t)*(-t)") = .ok e ∧ e.root = .binary "*" opposite opposite ∧
      ∀ u : Float, ∃ y z, er.evaluate (.real u) = .ok y ∧ es.evaluate (.real y) = .ok z ∧
        e.evaluate (.real u) = .ok z := by
  have hsquare : Reading "t*t".toList
      (.binary "*" (.parameter Symbol.parameterName) (.parameter Symbol.parameterName))
      [⟨.symbol .parameter, 0⟩, ⟨.operator .mul, 1⟩, ⟨.symbol .parameter, 2⟩]
      [⟨.symbol .parameter, 0⟩, ⟨.operator .mul, 0⟩, ⟨.symbol .parameter, 0⟩] :=
    { tokens_eq := by decide +kernel
      lexemes_eq := rfl
      derives := .ofTerm (.product (.inl rfl) (.ofUnary (.ofPower (.ofPrimary (.parameter 0))))
        (.ofPower (.ofPrimary (.parameter 0))))
      bounded := by simp [Bounded] }
  have hopposite : Reading "-t".toList opposite
      [⟨.operator .sub, 0⟩, ⟨.symbol .parameter, 1⟩]
      [⟨.operator .sub, 0⟩, ⟨.symbol .parameter, 1⟩] :=
    { tokens_eq := by decide +kernel
      lexemes_eq := rfl
      derives := .ofTerm (.ofUnary (.minus (.ofPower (.ofPrimary (.parameter 1)))))
      bounded := by simp [Bounded, Lexicon.maxDepth] }
  have hs := parse_of_reading hsquare (by decide)
  have hr := parse_of_reading hopposite (by decide)
  obtain ⟨-, -, h⟩ := parse_substituted hs hr
  obtain ⟨hone, hall⟩ := h _ _ _ _ 1 hsquare hopposite (by simp [Bounded])
  obtain ⟨e, he, hroot, hvalues⟩ := hall (by simp) "(-t)*(-t)" (by decide) (by decide)
  have hfactor := hone 1 _ _ rfl rfl (by decide) "t*(-t)" (by decide) (by decide)
  exact ⟨_, _, e, hs, hr, hfactor, he, hroot, hvalues⟩

end SpaceCurve
