import SpaceCurve.Proofs.Balance
import SpaceCurve.Proofs.Descent
import SpaceCurve.Proofs.Evaluation
import SpaceCurve.Proofs.Numerals

/-!
# The descent and the machine agree

The descent of `SpaceCurve.Proofs.Descent` may stop in five ways, and only one of them is an
objection to the text.  `parse_safe` says that none of the others ever happens: no value makes it
look past the last row, meet a number token that is no number, count the arguments of what is no
function or leave a name without a meaning.  It also says what the descent returns, which is what
the machine returns.

The proof is one comparison of the two.  The machine has no row to look past and no name to look up,
so whatever the descent does in step with the machine is free of these faults.

## What is here

* `Agrees s tokens stop reached r` — the machine is in the state `s` in front of some tokens, the
  descent returns `r` from the table of these tokens.  If it has found something, then the machine
  reaches a state as `reached` describes it, in front of the same rows; an objection is the error
  with which the machine ends.  The four other stops agree with nothing.  `Agrees.bind` follows a
  procedure into the next one, `Agrees.step` follows the machine one token further.
* `Grown k S tree s rest` — the description for most phrases.  The machine has an operand, and the
  operators that it has put on the stack `S` will make the tree of it (`Holds`); the next token does
  not bind as tightly as `k` (`Ended`).  The second half is what the objections depend on: a token
  that is misplaced for the descent is misplaced for the machine because it is no operator.
* `Below n` — unaries and chains of fewer than `n` tokens are read as the machine reads them.  There
  is a lemma for each procedure which takes this as given, and `below` closes the circle.
* `read_eq`, `readText_eq`, `parse_eq` — the same for tables, texts and values.

Where an operand must come, a closing parenthesis is stray for the descent in every place but one.
The machine tells that place, directly after the opening parenthesis of a call, by its stack, and
`Expects` keeps the other procedures away from it.
-/

set_option autoImplicit false

namespace SpaceCurve
namespace Descent

open SpaceCurve.Parser

variable {α β : Type} {n m stop d k : Nat} {s s' : State} {S : List Frame} {t : Token}
  {tokens rest : List Token} {rows : List Token.Row} {a b : Tree} {l : Level}

/-! ## Tables -/

/-- The rows of some tokens whose text ends at `stop`. -/
def table (tokens : List Token) (stop : Nat) : List Token.Row :=
  tokens.map Token.row ++ [Token.endRow stop]

theorem table_nil (stop : Nat) : table [] stop = [Token.endRow stop] := rfl

theorem table_cons (t : Token) (rest : List Token) (stop : Nat) :
    table (t :: rest) stop = t.row :: table rest stop := rfl

/-- The token has a spelling. -/
def Readable (t : Token) : Prop := ∃ run, Lexer.Spells t.lexeme run

/-- Each token has a spelling. -/
def Legible (tokens : List Token) : Prop := ∀ t ∈ tokens, Readable t

theorem Legible.suffix (h : Legible tokens) (hrest : rest <:+ tokens) : Legible rest :=
  fun t ht => h t (hrest.subset ht)

theorem Legible.head (h : Legible (t :: rest)) : Readable t :=
  h t (List.mem_cons_self ..)

theorem Legible.tail (h : Legible (t :: rest)) : Legible rest :=
  h.suffix (List.suffix_cons t rest)

/-! ## What the machine makes of the rest -/

/-- What the machine makes of the tokens that are left. -/
def outcome (s : State) (tokens : List Token) (stop : Nat) : Except SyntaxError Tree :=
  (tokens.foldlM step s).bind fun s => finish s stop

theorem outcome_nil (s : State) (stop : Nat) : outcome s [] stop = finish s stop := rfl

theorem outcome_cons (h : step s t = .ok s') :
    outcome s (t :: rest) stop = outcome s' rest stop := by
  rw [outcome, run_cons h, outcome]

theorem outcome_error {e : SyntaxError} (h : step s t = .error e) :
    outcome s (t :: rest) stop = .error e := by
  rw [outcome, List.foldlM_cons, h]
  rfl

/-! ## Agreement -/

/-- What the descent returns agrees with what the machine does from a state on.  Where the descent
has found something, the machine comes to a state in which this is `reached`, with the same tokens
left; where the descent objects, the machine ends with that error. -/
def Agrees (s : State) (tokens : List Token) (stop : Nat)
    (reached : α → State → List Token → Prop) : Except Stop (Found α n) → Prop
  | .ok found => ∃ s' rest, found.after = table rest stop ∧ rest <:+ tokens ∧
      outcome s tokens stop = outcome s' rest stop ∧ reached found.value s' rest
  | .error x => ∃ e, outcome s tokens stop = .error e ∧ x = .objection e.objection

variable {P : α → State → List Token → Prop} {Q : β → State → List Token → Prop}

/-- One after the other. -/
theorem Agrees.bind {r : Except Stop (Found α n)} {f : Found α n → Except Stop (Found β m)}
    (h : Agrees s tokens stop P r)
    (hf : ∀ found s' rest, found.after = table rest stop → rest <:+ tokens → P found.value s' rest →
      Agrees s' rest stop Q (f found)) :
    Agrees s tokens stop Q (r >>= f) := by
  cases r with
  | error x => exact h
  | ok found =>
    obtain ⟨s', rest, hafter, hrest, houtcome, hreached⟩ := h
    have hnext := hf found s' rest hafter hrest hreached
    show Agrees s tokens stop Q (f found)
    cases hfound : f found with
    | error x =>
      rw [hfound] at hnext
      obtain ⟨e, he, hx⟩ := hnext
      exact ⟨e, houtcome.trans he, hx⟩
    | ok found' =>
      rw [hfound] at hnext
      obtain ⟨s'', rest', hafter', hrest', houtcome', hreached'⟩ := hnext
      exact ⟨s'', rest', hafter', hrest'.trans hrest, houtcome.trans houtcome', hreached'⟩

/-- After a step of the machine. -/
theorem Agrees.step {r : Except Stop (Found α n)} (h : Parser.step s t = .ok s')
    (hr : Agrees s' rest stop P r) : Agrees s (t :: rest) stop P r := by
  cases r with
  | error x =>
    obtain ⟨e, he, hx⟩ := hr
    exact ⟨e, (outcome_cons h).trans he, hx⟩
  | ok found =>
    obtain ⟨s'', rest', hafter, hrest, houtcome, hreached⟩ := hr
    exact ⟨s'', rest', hafter, hrest.trans (List.suffix_cons t rest),
      (outcome_cons h).trans houtcome, hreached⟩

/-- What is found stays the same when something is made of it. -/
theorem Agrees.ok {found : Found α n} (hafter : found.after = table tokens stop)
    (h : P found.value s tokens) : Agrees s tokens stop P (.ok found) :=
  ⟨s, tokens, hafter, List.suffix_rfl, rfl, h⟩

/-! ## Rows of tokens -/

theorem text_ne_empty (h : Readable t) : (t.lexeme.text == "") = false := by
  obtain ⟨run, hrun⟩ := h
  have hne : run ≠ [] := List.ne_nil_of_length_pos hrun.length_pos
  rw [beq_eq_false_iff_ne]
  intro hempty
  rcases hrun.eq_text with htext | ⟨hpow, -⟩
  · rw [hempty] at htext
    exact hne htext
  · rw [hpow] at hempty
    exact absurd hempty (by decide)

/-- An objection to the row of a token is an error at the token. -/
theorem objectAt_row (h : Readable t) (c : Complaint) :
    objectAt c.reason t.row = .objection (SyntaxError.atToken c t).objection := by
  have htext : (t.row.text == "") = false := text_ne_empty h
  rw [objectAt, htext]
  rfl

theorem text_row {lexeme : Lexeme} (h : t.lexeme = lexeme) : t.row.text = lexeme.text :=
  congrArg Lexeme.text h

/-- Different operators have different signs. -/
theorem sign_inj {o p : Operator} (h : o.sign = p.sign) : o = p := by
  have hsome := Operator.ofSign?_sign o
  rw [h, Operator.ofSign?_sign] at hsome
  exact (Option.some.inj hsome).symm

theorem isSign_row {o : Operator} : isSign o t.row = true ↔ t.lexeme = .operator o := by
  obtain ⟨lexeme, position⟩ := t
  cases lexeme with
  | operator p =>
    have hsign : isSign o (Token.row ⟨.operator p, position⟩) = (p.sign == o.sign) :=
      Bool.true_and _
    rw [hsign, beq_iff_eq]
    exact ⟨fun h => congrArg _ (sign_inj h), fun h => congrArg _ (Lexeme.operator.inj h)⟩
  | _ => simp [isSign, Token.row, Lexeme.kind]

theorem isNumber_row : (t.row.kind == "number") = true ↔ ∃ text, t.lexeme = .number text := by
  obtain ⟨lexeme, position⟩ := t
  cases lexeme <;> simp [Token.row, Lexeme.kind]

theorem isName_row : (t.row.kind == "ident") = true ↔ ∃ name, t.lexeme = .symbol name := by
  obtain ⟨lexeme, position⟩ := t
  cases lexeme <;> simp [Token.row, Lexeme.kind]

theorem isOpening_row : (t.row.kind == "lparen") = true ↔ t.lexeme = .opening := by
  obtain ⟨lexeme, position⟩ := t
  cases lexeme <;> simp [Token.row, Lexeme.kind]

theorem isClosing_row : (t.row.kind == "rparen") = true ↔ t.lexeme = .closing := by
  obtain ⟨lexeme, position⟩ := t
  cases lexeme <;> simp [Token.row, Lexeme.kind]

theorem isComma_row : (t.row.kind == "comma") = true ↔ t.lexeme = .comma := by
  obtain ⟨lexeme, position⟩ := t
  cases lexeme <;> simp [Token.row, Lexeme.kind]

theorem not_isEnd_row (t : Token) : ¬ (t.row.kind == "eof") = true := by
  rw [beq_iff_eq]
  exact (Lexer.isRow_row t).kind_ne

/-- How tightly the operators of the level bind. -/
def Level.strength : Level → Nat
  | .sum => 1
  | .product => 2

theorem takes_row : l.takes t.row = true ↔
    ∃ o, t.lexeme = .operator o ∧ o ≠ .pow ∧ o.strength = l.strength := by
  simp only [Level.takes, List.any_eq_true, isSign_row]
  constructor
  · rintro ⟨o, ho, ht⟩
    refine ⟨o, ht, ?_⟩
    cases l <;> cases o <;> first | decide | simp [Level.operators] at ho
  · rintro ⟨o, ht, hpow, ho⟩
    refine ⟨o, ?_, ht⟩
    cases l <;> cases o <;> simp_all [Level.operators, Level.strength, Operator.strength]

/-! ## Phrases that have been read -/

/-- The machine has an operand which, after a release of strength `k`, is the tree. -/
def Holds (k : Nat) (S : List Frame) (tree : Tree) (s : State) : Prop :=
  ∃ F v, s = ⟨F ++ S, .complete v⟩ ∧ Pending k F v tree

/-- The next token is no operator that binds as tightly as `k`. -/
def Ended (k : Nat) (tokens : List Token) : Prop :=
  ∀ t rest o, tokens = t :: rest → t.lexeme = .operator o → o.strength < k

/-- The machine has an operand, and no operator of strength `k` goes on with it. -/
def Grown (k : Nat) (S : List Frame) (tree : Tree) (s : State) (rest : List Token) : Prop :=
  Holds k S tree s ∧ Ended k rest

theorem holds_self (k : Nat) (S : List Frame) (tree : Tree) : Holds k S tree ⟨S, .complete tree⟩ :=
  ⟨[], tree, rfl, pending_nil k tree⟩

theorem Holds.mono {j : Nat} (h : Holds k S a s) (hjk : j ≤ k) : Holds j S a s := by
  obtain ⟨F, v, hs, hF⟩ := h
  exact ⟨F, v, hs, hF.mono hjk⟩

theorem Holds.negate (h : Holds k (.negate :: S) a s) :
    Holds k S (.unary Lexicon.negation a) s := by
  obtain ⟨F, v, rfl, hF⟩ := h
  exact ⟨F ++ [.negate], v, by simp, hF.negate⟩

theorem Holds.binary {o : Operator} (h : Holds k (.binary o a :: S) b s) (ho : k ≤ o.strength) :
    Holds k S (.binary o.sign a b) s := by
  obtain ⟨F, v, rfl, hF⟩ := h
  exact ⟨F ++ [.binary o a], v, by simp, hF.binary ho a⟩

theorem ended_nil (k : Nat) : Ended k [] := by
  intro t rest o h
  cases h

/-- An operand must come, and it is not the missing first argument of a call. -/
def Expects (S : List Frame) (tokens : List Token) : Prop :=
  ∀ f name opening below t rest, S = .call f name opening [] :: below → tokens = t :: rest →
    t.lexeme ≠ .closing

theorem expects_of_ne {frame : Frame} (h : ∀ f name opening, frame ≠ .call f name opening []) :
    Expects (frame :: S) tokens :=
  fun f name opening _ _ _ hS _ => absurd (List.cons.inj hS).1 (h f name opening)

/-- One more nesting construct. -/
theorem Agrees.nest {frame : Frame} {f : Unit → Except Stop (Found α n)}
    (ht : Readable t) (hd : depth S = d)
    (hstep : Parser.step s t = (Parser.nest frame S t).map fun stack => ⟨stack, .operand⟩)
    (h : Agrees ⟨frame :: S, .operand⟩ rest stop P (f ())) :
    Agrees s (t :: rest) stop P (Descent.nest d t.row >>= f) := by
  rw [Parser.nest, hd] at hstep
  rw [Descent.nest]
  split
  · next hdeep =>
    rw [if_pos hdeep] at hstep
    exact ⟨_, outcome_error hstep, objectAt_row ht .tooDeep⟩
  · next hdeep =>
    rw [if_neg hdeep] at hstep
    exact h.step hstep

/-! ## What each procedure reads -/

/-- The descent reads a unary as the machine does, wherever one may begin. -/
def UnaryRead (tokens : List Token) : Prop :=
  ∀ stop S d rows, depth S = d → Expects S tokens → rows = table tokens stop →
    Agrees ⟨S, .operand⟩ tokens stop (Grown 3 S) (unary d rows)

/-- The same for a chain of operands. -/
def ChainRead (l : Level) (tokens : List Token) : Prop :=
  ∀ stop S d rows, depth S = d → Expects S tokens → Settled l.strength S →
    rows = table tokens stop →
      Agrees ⟨S, .operand⟩ tokens stop (Grown l.strength S) (chain l d rows)

/-- The same for one of the operands. -/
def OperandRead (l : Level) (tokens : List Token) : Prop :=
  ∀ stop S d rows, depth S = d → Expects S tokens → Settled (l.strength + 1) S →
    rows = table tokens stop →
      Agrees ⟨S, .operand⟩ tokens stop (Grown (l.strength + 1) S) (operand l d rows)

/-- Fewer tokens than `n` are read as the machine does. -/
structure Below (n : Nat) : Prop where
  unary : ∀ tokens, tokens.length < n → Legible tokens → UnaryRead tokens
  chain : ∀ l tokens, tokens.length < n → Legible tokens → ChainRead l tokens

theorem raised_agrees (hbelow : Below n) (hn : tokens.length ≤ n) (hlegible : Legible tokens)
    (hd : depth S = d) (hrows : rows = table tokens stop) :
    Agrees ⟨S, .complete a⟩ tokens stop (Grown 3 S) (raised d a rows) := by
  subst hrows
  cases tokens with
  | nil =>
    rw [table_nil, raised]
    exact .ok rfl ⟨holds_self 3 S a, ended_nil 3⟩
  | cons t rest =>
    rw [table_cons, raised]
    split
    · next hsign =>
      have ht := isSign_row.1 hsign
      have hstep : Parser.step ⟨S, .complete a⟩ t =
          (Parser.nest (.binary .pow a) S t).map fun stack => ⟨stack, .operand⟩ := by
        simp only [Parser.step, stepComplete, ht]
      refine .nest hlegible.head hd hstep ?_
      refine (hbelow.unary rest hn hlegible.tail stop _ _ _ (by simp [hd])
        (expects_of_ne (by simp)) rfl).bind fun found s' rest' hafter _ hgrown => ?_
      have hsame : t.row.text = Operator.pow.sign := text_row ht
      rw [hsame]
      exact .ok hafter ⟨hgrown.1.binary (Nat.le_refl 3), hgrown.2⟩
    · next hsign =>
      refine .ok rfl ⟨holds_self 3 S a, ?_⟩
      rintro u tail o heq ho
      obtain ⟨rfl, rfl⟩ := List.cons.inj heq
      have hpow : o ≠ .pow := fun h => hsign (isSign_row.2 (h ▸ ho))
      cases o <;> first | decide | exact absurd rfl hpow

/-! ## Parentheses -/

/-- A missing closing parenthesis is reported at the opening one. -/
theorem missingClosing_atToken (ht : t.lexeme = .opening) :
    SyntaxError.atToken .missingClosing t = SyntaxError.atText .missingClosing t.position "(" := by
  rw [SyntaxError.atToken, ht]
  rfl

/-- Every operator binds at least as tightly as a sum. -/
theorem ne_operator_of_ended (h : Ended 1 (t :: rest)) (o : Operator) : t.lexeme ≠ .operator o := by
  intro ht
  have hlt := h t rest o rfl ht
  cases o <;> exact absurd hlt (by decide)

theorem releaseAll_of_pending {F : List Frame} {v : Tree} (hF : Pending 1 F v a)
    (hS : Settled 1 S) : releaseAll (F ++ S) v = (S, a) := by
  rw [releaseAll, hF 1 (Nat.le_refl 1), release_of_settled hS]

/-- After a complete operand, a token that neither goes on with it nor closes is misplaced. -/
theorem step_misplaced {F : List Frame} {v : Tree} (hF : Pending 1 F v a) (hS : Settled 1 S)
    (hoperator : ∀ o, t.lexeme ≠ .operator o) (hclosing : t.lexeme ≠ .closing)
    (hcomma : t.lexeme = .comma → ∀ f name opening args below,
      S ≠ .call f name opening args :: below) :
    Parser.step ⟨F ++ S, .complete v⟩ t = .error (misplaced S t) := by
  have hrelease := releaseAll_of_pending hF hS
  simp only [Parser.step]
  rw [stepComplete.eq_def]
  split
  · next ht => exact absurd ht (hoperator _)
  · next ht => exact absurd ht (hoperator _)
  · next ht =>
    rw [hrelease]
    split
    · next heq => exact absurd (Prod.mk.inj heq).1 (hcomma ht _ _ _ _ _)
    · next heq => rw [(Prod.mk.inj heq).1]
  · next ht => exact absurd ht hclosing
  · rw [hrelease]

/-- The closing parenthesis is there, or both the descent and the machine say that it is not. -/
theorem Agrees.closing {opening : Token} (hopening : opening.lexeme = .opening)
    (hlegible : Legible tokens) (hrows : rows = table tokens stop)
    (hfinish : tokens = [] →
      finish s stop = .error (SyntaxError.atToken .missingClosing opening))
    (hstep : ∀ t rest, tokens = t :: rest → t.lexeme ≠ .closing →
      Parser.step s t = .error (SyntaxError.atToken (.expectedClosing t.lexeme.text) t))
    {f : Found Unit rows.length → Except Stop (Found α n)}
    (hf : ∀ t rest found, tokens = t :: rest → t.lexeme = .closing →
      found.after = table rest stop → Agrees s (t :: rest) stop P (f found)) :
    Agrees s tokens stop P (Descent.closing opening.row rows >>= f) := by
  have hspelled : Readable opening := ⟨['('], hopening ▸ .opening⟩
  subst hrows
  cases tokens with
  | nil => exact ⟨_, hfinish rfl, objectAt_row hspelled .missingClosing⟩
  | cons t rest =>
    by_cases ht : t.lexeme = .closing
    · have hclosed : Descent.closing opening.row (table (t :: rest) stop) =
          .ok ⟨(), table rest stop, Nat.lt_succ_self _⟩ := if_pos (isClosing_row.2 ht)
      rw [hclosed]
      exact hf t rest _ rfl ht rfl
    · have hclosed : Descent.closing opening.row (table (t :: rest) stop) =
          .error (objectAt (Complaint.expectedClosing t.row.text).reason t.row) := by
        rw [table_cons, Descent.closing, if_neg fun h => ht (isClosing_row.1 h),
          if_neg (not_isEnd_row t)]
      rw [hclosed]
      exact ⟨_, outcome_error (hstep t rest rfl ht), objectAt_row hlegible.head _⟩

/-! ## Calls -/

/-- The machine has the arguments of a call: none, in front of the closing parenthesis, or all but
the last one on the stack and that one as an operand. -/
def Listed (f : Func) (name opening : Nat) (S : List Frame) (args : List Tree) (s : State)
    (rest : List Token) : Prop :=
  (args = [] ∧ s = ⟨.call f name opening [] :: S, .operand⟩ ∧
    ∃ t tail, rest = t :: tail ∧ t.lexeme = .closing) ∨
  ∃ init last, args = init ++ [last] ∧ Grown 1 (.call f name opening init :: S) last s rest ∧
    ∀ t tail, rest = t :: tail → t.lexeme ≠ .comma

theorem furtherArguments_agrees {f : Func} {name opening : Nat} (hbelow : Below n)
    (hn : tokens.length ≤ n) (hlegible : Legible tokens) (hd : depth S + 1 = d) (init : List Tree)
    (hgrown : Grown 1 (.call f name opening init :: S) a s tokens)
    (hrows : rows = table tokens stop) :
    Agrees s tokens stop (Listed f name opening S) (furtherArguments d (init ++ [a]) rows) := by
  induction hlength : tokens.length using Nat.strongRecOn generalizing tokens init a s rows with
  | ind length ih =>
    subst hrows
    cases tokens with
    | nil =>
      rw [table_nil, furtherArguments]
      refine .ok rfl (.inr ⟨init, a, rfl, hgrown, fun t tail h => ?_⟩)
      cases h
    | cons t rest =>
      rw [table_cons, furtherArguments]
      split
      · next hcomma =>
        obtain ⟨⟨F, v, rfl, hF⟩, -⟩ := hgrown
        refine .step (step_comma (isComma_row.1 hcomma) hF) ?_
        refine (hbelow.chain .sum rest hn hlegible.tail stop
          (.call f name opening (init ++ [a]) :: S) d _ (by simp [hd]) (expects_of_ne (by simp))
          trivial rfl).bind
            fun found s' rest' hafter hrest' hgrown' => ?_
        have hshorter : rest'.length < length := hlength ▸ Nat.lt_succ_of_le hrest'.length_le
        exact (ih rest'.length hshorter (by omega) (hlegible.tail.suffix hrest') (init ++ [a])
          hgrown' hafter rfl).bind fun all s'' rest'' hafter' _ hlisted => .ok hafter' hlisted
      · next hcomma =>
        refine .ok rfl (.inr ⟨init, a, rfl, hgrown, fun u tail h => ?_⟩)
        obtain ⟨rfl, rfl⟩ := List.cons.inj h
        exact fun hu => hcomma (isComma_row.2 hu)

theorem arguments_agrees {f : Func} {name opening : Nat} (hbelow : Below n)
    (hn : tokens.length < n) (hlegible : Legible tokens) (hd : depth S + 1 = d)
    (hrows : rows = table tokens stop) :
    Agrees ⟨.call f name opening [] :: S, .operand⟩ tokens stop (Listed f name opening S)
      (arguments d rows) := by
  subst hrows
  -- all but a closing parenthesis is read as the first argument
  have hfirst : (∀ t rest, tokens = t :: rest → t.lexeme ≠ .closing) →
      Agrees ⟨.call f name opening [] :: S, .operand⟩ tokens stop (Listed f name opening S)
        (do
          let first ← chain .sum d (table tokens stop)
          let args ← furtherArguments d [first.value] first.after
          return args.weaken (Nat.le_succ_of_le first.fewer)) := by
    intro hclosing
    refine (hbelow.chain .sum tokens hn hlegible stop (.call f name opening [] :: S) d _
      (by simp [hd]) (fun _ _ _ _ t rest _ htokens => hclosing t rest htokens) trivial rfl).bind
        fun found s' rest' hafter hrest' hgrown => ?_
    have hle := hrest'.length_le
    exact (furtherArguments_agrees hbelow (by omega) (hlegible.suffix hrest') hd [] hgrown
      hafter).bind fun all s'' rest'' hafter' _ hlisted => .ok hafter' hlisted
  cases tokens with
  | nil =>
    have hend : ¬ ((Token.endRow stop).kind == "rparen") = true := (by decide : ¬ "eof" == "rparen")
    rw [table_nil, arguments, if_neg hend]
    exact hfirst fun t rest h => by cases h
  | cons t rest =>
    rw [table_cons, arguments]
    split
    · next hclosing =>
      exact .ok rfl (.inl ⟨rfl, rfl, t, rest, rfl, isClosing_row.1 hclosing⟩)
    · next hclosing =>
      refine hfirst fun u tail h => ?_
      obtain ⟨rfl, rfl⟩ := List.cons.inj h
      exact fun hu => hclosing (isClosing_row.2 hu)

theorem finish_call {f : Func} {name opening : Nat} {args : List Tree}
    (h : Holds 1 (.call f name opening args :: S) a s) :
    finish s stop = .error (SyntaxError.atText .missingClosing opening "(") := by
  obtain ⟨F, v, rfl, hF⟩ := h
  have hrelease := releaseAll_of_pending (S := .call f name opening args :: S) hF trivial
  simp only [finish, hrelease]

theorem Listed.finish {f : Func} {name opening : Nat} {args : List Tree}
    (h : Listed f name opening S args s []) :
    Parser.finish s stop = .error (SyntaxError.atText .missingClosing opening "(") := by
  rcases h with ⟨-, -, t, tail, hnil, -⟩ | ⟨init, last, -, hgrown, -⟩
  · cases hnil
  · exact finish_call hgrown.1

theorem Listed.step_misplaced {f : Func} {name opening : Nat} {args : List Tree}
    (h : Listed f name opening S args s (t :: rest)) (ht : t.lexeme ≠ .closing) :
    Parser.step s t = .error (SyntaxError.atToken (.expectedClosing t.lexeme.text) t) := by
  rcases h with ⟨-, -, u, tail, hcons, hu⟩ | ⟨init, last, -, ⟨⟨F, v, rfl, hF⟩, hended⟩, hcomma⟩
  · exact absurd ((List.cons.inj hcons).1 ▸ hu) ht
  · exact Descent.step_misplaced hF trivial (ne_operator_of_ended hended) ht
      fun h => absurd h (hcomma t rest rfl)

theorem Listed.step_closing {f : Func} {name opening : Nat} {args : List Tree}
    (h : Listed f name opening S args s (t :: rest)) (ht : t.lexeme = .closing) :
    Parser.step s t = close f name args S := by
  rcases h with ⟨rfl, rfl, -⟩ | ⟨init, last, rfl, ⟨⟨F, v, rfl, hF⟩, -⟩, -⟩
  · simp only [Parser.step, stepOperand, ht]
  · have hrelease := releaseAll_of_pending (S := .call f name opening init :: S) hF trivial
    simp only [Parser.step, stepComplete, ht, hrelease]

/-- The machine has the tree as an operand, and nothing waits for it that was not there before. -/
def Whole (S : List Frame) (tree : Tree) (s : State) (_ : List Token) : Prop :=
  s = ⟨S, .complete tree⟩

/-- An objection to the name of a function. -/
theorem objectAt_name {f : Func} {name : Token} (hname : name.lexeme = .symbol (.function f))
    (c : Complaint) :
    objectAt c.reason name.row =
      .objection (SyntaxError.atText c name.position f.spelling).objection := by
  have hspelled : Readable name := ⟨f.spelling.toList, hname ▸ Lexer.Spells.name (.function f)⟩
  have htext : name.lexeme.text = f.spelling := text_row hname
  rw [objectAt_row hspelled, SyntaxError.atToken, htext]
  rfl

/-- A call is closed in the descent as it is in the machine. -/
theorem applied_agrees {f : Func} {name : Token} {args : List Tree} {r : Tree → Found Tree n}
    (hname : name.lexeme = .symbol (.function f)) (ht : step s t = close f name.position args S)
    (hr : ∀ tree, (r tree).value = tree ∧ (r tree).after = table rest stop) :
    Agrees s (t :: rest) stop (Whole S) (do
      let tree ← applied name.row args
      return r tree) := by
  have htext : name.row.text = f.spelling := text_row hname
  rw [applied, htext, Func.ofSpelling?_spelling]
  rw [close] at ht
  simp only
  split
  · next hcount =>
    rw [if_pos hcount] at ht
    refine .step ht (.ok (hr _).2 ?_)
    rw [(hr _).1]
    rfl
  · next hcount =>
    rw [if_neg hcount] at ht
    exact ⟨_, outcome_error ht, objectAt_name hname (.wrongCount f args.length)⟩

theorem call_agrees {f : Func} {name : Token} (hbelow : Below n) (hn : tokens.length ≤ n)
    (hlegible : Legible tokens) (hname : name.lexeme = .symbol (.function f)) (hd : depth S = d)
    (hrows : rows = table tokens stop) :
    Agrees ⟨S, .callee f name.position⟩ tokens stop (Whole S) (call d name.row rows) := by
  have hreason : "function '" ++ name.row.text ++ "' must be called with parentheses" =
      (Complaint.notCalled f).reason := by
    rw [text_row hname]
    rfl
  subst hrows
  cases tokens with
  | nil =>
    have hend : ¬ ((Token.endRow stop).kind == "lparen") = true := (by decide : ¬ "eof" == "lparen")
    rw [table_nil, call, if_neg hend, hreason]
    exact ⟨_, rfl, objectAt_name hname (.notCalled f)⟩
  | cons t rest =>
    rw [table_cons, call]
    split
    · next hopening =>
      have ht := isOpening_row.1 hopening
      have hstep : Parser.step ⟨S, .callee f name.position⟩ t =
          (Parser.nest (.call f name.position t.position []) S t).map
            fun stack => ⟨stack, .operand⟩ := by
        simp only [Parser.step, ht]
      refine .nest hlegible.head hd hstep ?_
      refine (arguments_agrees hbelow hn hlegible.tail (by rw [hd]) rfl).bind
        fun args s' rest' hafter hrest' hlisted => ?_
      refine .closing ht (hlegible.tail.suffix hrest') hafter ?_ ?_ ?_
      · rintro rfl
        rw [hlisted.finish, missingClosing_atToken ht]
      · rintro u tail rfl hu
        exact hlisted.step_misplaced hu
      · rintro u tail closed rfl hu hclosed
        exact applied_agrees hname (hlisted.step_closing hu) fun tree => ⟨rfl, hclosed⟩
    · next hopening =>
      have hstep : Parser.step ⟨S, .callee f name.position⟩ t =
          .error (SyntaxError.atText (.notCalled f) name.position f.spelling) := by
        simp only [Parser.step]
        split
        · next ht => exact absurd (isOpening_row.2 ht) hopening
        · rfl
      rw [hreason]
      exact ⟨_, outcome_error hstep, objectAt_name hname (.notCalled f)⟩

/-! ## Primaries -/

/-- The text of a number token is a number. -/
theorem float?_row {text : List Char} (h : Readable t)
    (ht : t.lexeme = .number text) : Numeral.float? t.row.text = some (Numeral.decimal text) := by
  obtain ⟨run, hrun⟩ := h
  have hsame : t.row.text = String.ofList text := text_row ht
  rw [ht] at hrun
  cases hrun with
  | number digits point ne_nil ne_point =>
    rw [hsame, Numeral.float?_eq_decimal (.number digits point ne_nil ne_point)]

/-- No function has the name of the parameter or of a constant. -/
theorem spelling_free (f : Func) :
    f.spelling ≠ Symbol.parameterName ∧ Constant.ofSpelling? f.spelling = none := by
  cases f <;> decide

theorem spelling_ne_parameter (c : Constant) : c.spelling ≠ Symbol.parameterName := by
  cases c <;> decide

theorem finish_group {opening : Nat} (h : Holds 1 (.group opening :: S) a s) :
    finish s stop = .error (SyntaxError.atText .missingClosing opening "(") := by
  obtain ⟨F, v, rfl, hF⟩ := h
  have hrelease := releaseAll_of_pending (S := .group opening :: S) hF trivial
  simp only [finish, hrelease]

theorem group_agrees (hbelow : Below n) (hn : rest.length < n) (hlegible : Legible (t :: rest))
    (ht : t.lexeme = .opening) (hd : depth S = d) (hrows : rows = table rest stop) :
    Agrees ⟨S, .operand⟩ (t :: rest) stop (Whole S) (group d t.row rows) := by
  have hstep : Parser.step ⟨S, .operand⟩ t =
      (Parser.nest (.group t.position) S t).map fun stack => ⟨stack, .operand⟩ := by
    simp only [Parser.step, stepOperand, ht]
  rw [group]
  refine .nest hlegible.head hd hstep ?_
  refine (hbelow.chain .sum rest hn hlegible.tail stop (.group t.position :: S) _ _
    (by simp [hd]) (expects_of_ne (by simp)) trivial hrows).bind
      fun inner s' rest' hafter hrest' hread => ?_
  obtain ⟨hheld, hended⟩ := hread
  refine .closing ht (hlegible.tail.suffix hrest') hafter ?_ ?_ ?_
  · rintro rfl
    rw [finish_group hheld, missingClosing_atToken ht]
  · rintro u tail rfl hu
    obtain ⟨F, v, rfl, hF⟩ := hheld
    exact step_misplaced hF trivial (ne_operator_of_ended hended) hu (by simp)
  · rintro u tail closed rfl hu hclosed
    obtain ⟨F, v, rfl, hF⟩ := hheld
    exact .step (step_closing_group hu hF) (.ok hclosed rfl)

theorem named_agrees {name : Symbol} (hbelow : Below n) (hn : rest.length < n)
    (hlegible : Legible (t :: rest)) (ht : t.lexeme = .symbol name) (hd : depth S = d)
    (hrows : rows = table rest stop) :
    Agrees ⟨S, .operand⟩ (t :: rest) stop (Whole S) (named d t.row rows) := by
  have htext : t.row.text = name.spelling := text_row ht
  rw [named, htext]
  cases name with
  | parameter =>
    have hstep : Parser.step ⟨S, .operand⟩ t =
        .ok ⟨S, .complete (.parameter Symbol.parameterName)⟩ := by
      simp only [Parser.step, stepOperand, ht]
    exact .step hstep (.ok hrows rfl)
  | constant c =>
    have hstep : Parser.step ⟨S, .operand⟩ t = .ok ⟨S, .complete (.constant c.spelling)⟩ := by
      simp only [Parser.step, stepOperand, ht]
    have hsome : (Constant.ofSpelling? c.spelling).isSome = true := by
      rw [Constant.ofSpelling?_spelling]
      rfl
    rw [Symbol.spelling, if_neg (by simpa using spelling_ne_parameter c), if_pos hsome]
    exact .step hstep (.ok hrows rfl)
  | function f =>
    obtain ⟨hparameter, hconstant⟩ := spelling_free f
    have hnone : ¬ (Constant.ofSpelling? f.spelling).isSome = true := by
      rw [hconstant]
      decide
    rw [Symbol.spelling, if_neg (by simpa using hparameter), if_neg hnone]
    refine .step (step_function ht) ?_
    exact (call_agrees hbelow (Nat.le_of_lt hn) hlegible.tail ht hd hrows).bind
      fun tree s' rest' hafter _ hwhole => .ok hafter hwhole

theorem step_closing_stray (hexpects : Expects S (t :: rest)) (ht : t.lexeme = .closing) :
    Parser.step ⟨S, .operand⟩ t = .error (SyntaxError.atToken .strayClosing t) := by
  simp only [Parser.step, stepOperand, ht]
  split
  · next f name opening below => exact absurd ht (hexpects f name opening below t rest rfl rfl)
  · rfl

/-- No operand begins with the sign of an operator but a minus sign. -/
theorem step_sign {o : Operator} (ht : t.lexeme = .operator o) (ho : o ≠ .sub) :
    Parser.step ⟨S, .operand⟩ t = .error (SyntaxError.atToken (.unexpectedToken o.sign) t) := by
  cases o with
  | sub => exact absurd rfl ho
  | _ => simp only [Parser.step, stepOperand, ht]

theorem primary_agrees (hbelow : Below n) (hn : tokens.length ≤ n) (hlegible : Legible tokens)
    (hminus : ∀ t rest, tokens = t :: rest → t.lexeme ≠ .operator .sub)
    (hexpects : Expects S tokens) (hd : depth S = d) (hrows : rows = table tokens stop) :
    Agrees ⟨S, .operand⟩ tokens stop (Whole S) (primary d rows) := by
  subst hrows
  cases tokens with
  | nil =>
    rw [table_nil, primary]
    exact ⟨_, rfl, rfl⟩
  | cons t rest =>
    have hshorter : rest.length < n := hn
    rw [table_cons, primary]
    split
    · next hnumber =>
      obtain ⟨text, ht⟩ := isNumber_row.1 hnumber
      have hstep : Parser.step ⟨S, .operand⟩ t =
          .ok ⟨S, .complete (.number (Numeral.decimal text))⟩ := by
        simp only [Parser.step, stepOperand, ht]
      simp only [float?_row hlegible.head ht]
      exact .step hstep (.ok rfl rfl)
    split
    · next hname =>
      obtain ⟨name, ht⟩ := isName_row.1 hname
      exact named_agrees hbelow hshorter hlegible ht hd rfl
    split
    · next hopening =>
      exact (group_agrees hbelow hshorter hlegible (isOpening_row.1 hopening) hd rfl).bind
        fun tree s' rest' hafter _ hwhole => .ok hafter hwhole
    split
    · next hclosing =>
      exact ⟨_, outcome_error (step_closing_stray hexpects (isClosing_row.1 hclosing)),
        objectAt_row hlegible.head .strayClosing⟩
    next hnumber hname hopening hclosing =>
    -- a comma or the sign of an operator
    have hstep : Parser.step ⟨S, .operand⟩ t =
        .error (SyntaxError.atToken (.unexpectedToken t.lexeme.text) t) := by
      cases ht : t.lexeme with
      | number text => exact absurd (isNumber_row.2 ⟨text, ht⟩) hnumber
      | symbol name => exact absurd (isName_row.2 ⟨name, ht⟩) hname
      | opening => exact absurd (isOpening_row.2 ht) hopening
      | closing => exact absurd (isClosing_row.2 ht) hclosing
      | comma => simp only [Parser.step, stepOperand, ht]
      | operator o => exact step_sign ht fun h => hminus t rest rfl (h ▸ ht)
    rw [if_neg (not_isEnd_row t)]
    exact ⟨_, outcome_error hstep, objectAt_row hlegible.head _⟩

/-! ## Powers, minus signs and chains -/

theorem power_agrees (hbelow : Below n) (hn : tokens.length ≤ n) (hlegible : Legible tokens)
    (hminus : ∀ t rest, tokens = t :: rest → t.lexeme ≠ .operator .sub)
    (hexpects : Expects S tokens) (hd : depth S = d) (hrows : rows = table tokens stop) :
    Agrees ⟨S, .operand⟩ tokens stop (Grown 3 S) (power d rows) := by
  rw [power]
  refine (primary_agrees hbelow hn hlegible hminus hexpects hd hrows).bind
    fun base s' rest hafter hrest hwhole => ?_
  obtain rfl : s' = ⟨S, .complete base.value⟩ := hwhole
  exact (raised_agrees hbelow (hrest.length_le.trans hn) (hlegible.suffix hrest) hd hafter).bind
    fun tree s'' rest' hafter' _ hgrown => .ok hafter' hgrown

theorem unary_agrees (hbelow : Below n) (hn : tokens.length ≤ n) (hlegible : Legible tokens) :
    UnaryRead tokens := by
  intro stop S d rows hd hexpects hrows
  subst hrows
  cases tokens with
  | nil =>
    rw [table_nil, unary]
    exact power_agrees hbelow hn hlegible (by simp) hexpects hd rfl
  | cons t rest =>
    rw [table_cons, unary]
    split
    · next hsign =>
      have ht := isSign_row.1 hsign
      have hstep : Parser.step ⟨S, .operand⟩ t =
          (Parser.nest .negate S t).map fun stack => ⟨stack, .operand⟩ := by
        simp only [Parser.step, stepOperand, ht]
      refine .nest hlegible.head hd hstep ?_
      exact (hbelow.unary rest hn hlegible.tail stop _ _ _ (by simp [hd])
        (expects_of_ne (by simp)) rfl).bind fun found s' rest' hafter _ hgrown =>
          .ok hafter ⟨hgrown.1.negate, hgrown.2⟩
    · next hsign =>
      refine power_agrees hbelow hn hlegible (fun u tail h hu => ?_) hexpects hd rfl
      obtain ⟨rfl, rfl⟩ := List.cons.inj h
      exact hsign (isSign_row.2 hu)

/-- The operands of a term are unaries. -/
theorem UnaryRead.operand (h : UnaryRead tokens) : OperandRead .product tokens := by
  intro stop S d rows hd hexpects _ hrows
  rw [Descent.operand]
  exact h stop S d rows hd hexpects hrows

/-- The operands of an expression are terms. -/
theorem ChainRead.operand (h : ChainRead .product tokens) : OperandRead .sum tokens := by
  intro stop S d rows hd hexpects hS hrows
  rw [Descent.operand]
  exact h stop S d rows hd hexpects hS hrows

theorem Below.operand (hbelow : Below n) (hn : tokens.length < n) (hlegible : Legible tokens)
    (l : Level) : OperandRead l tokens := by
  cases l with
  | sum => exact (hbelow.chain .product tokens hn hlegible).operand
  | product => exact (hbelow.unary tokens hn hlegible).operand

theorem links_agrees (hbelow : Below n) (hn : tokens.length ≤ n) (hlegible : Legible tokens)
    (hd : depth S = d) (hS : Settled l.strength S) (hheld : Holds l.strength S a s)
    (hended : Ended (l.strength + 1) tokens) (hrows : rows = table tokens stop) :
    Agrees s tokens stop (Grown l.strength S) (links l d a rows) := by
  -- `a` is the first operand or all that has been folded so far; the operators of the level are on
  -- the stack in the second case, so it is held with their strength and not with the one above
  induction hlength : tokens.length using Nat.strongRecOn generalizing tokens a s rows with
  | ind length ih =>
    subst hrows
    cases tokens with
    | nil =>
      have hend : ¬ l.takes (Token.endRow stop) = true := by cases l <;> exact Bool.false_ne_true
      rw [table_nil, links, if_neg hend]
      exact .ok rfl ⟨hheld, ended_nil _⟩
    | cons t rest =>
      rw [table_cons, links]
      split
      · next htakes =>
        obtain ⟨o, ht, hpow, ho⟩ := takes_row.1 htakes
        obtain ⟨F, v, rfl, hF⟩ := hheld
        refine .step (step_operator_of_pending ht hpow (ho ▸ hF) (ho ▸ hS)) ?_
        refine (hbelow.operand hn hlegible.tail l stop (.binary o a :: S) d _
          ((depth_binary hpow a S).trans hd) (expects_of_ne (by simp))
          (Nat.lt_succ_of_le (Nat.le_of_eq ho)) rfl).bind
            fun right s' rest' hafter hrest' hgrown => ?_
        have hshorter : rest'.length < length := hlength ▸ Nat.lt_succ_of_le hrest'.length_le
        have hsame : t.row.text = o.sign := text_row ht
        rw [hsame]
        exact (ih rest'.length hshorter (by omega) (hlegible.tail.suffix hrest')
          ((hgrown.1.mono (Nat.le_succ _)).binary (Nat.le_of_eq ho.symm)) hgrown.2 hafter rfl).bind
            fun tree s'' rest'' hafter' _ hgrown' => .ok hafter' hgrown'
      · next htakes =>
        refine .ok rfl ⟨hheld, ?_⟩
        rintro u tail o heq ho
        obtain ⟨rfl, rfl⟩ := List.cons.inj heq
        have hle := Nat.le_of_lt_succ (hended t rest o rfl ho)
        refine Nat.lt_of_le_of_ne hle fun hk => htakes (takes_row.2 ⟨o, ho, ?_, hk⟩)
        rintro rfl
        cases l <;> exact absurd hle (by decide)

theorem chain_agrees (hbelow : Below n) (hn : tokens.length ≤ n) (hlegible : Legible tokens)
    (hoperand : OperandRead l tokens) : ChainRead l tokens := by
  intro stop S d rows hd hexpects hS hrows
  rw [chain]
  refine (hoperand stop S d rows hd hexpects (hS.mono (Nat.le_succ _)) hrows).bind
    fun left s' rest hafter hrest hgrown => ?_
  exact (links_agrees hbelow (hrest.length_le.trans hn) (hlegible.suffix hrest) hd hS
    (hgrown.1.mono (Nat.le_succ _)) hgrown.2 hafter).bind
      fun tree s'' rest' hafter' _ hgrown' => .ok hafter' hgrown'

/-- **The descent reads as the machine does**, however many tokens there are.  The levels of the
grammar above each other read the same tokens, so for one number of tokens they follow each other
from the bottom to the top. -/
theorem below (n : Nat) : Below n := by
  induction n with
  | zero =>
    exact ⟨fun _ h => absurd h (Nat.not_lt_zero _), fun _ _ h => absurd h (Nat.not_lt_zero _)⟩
  | succ n hbelow =>
    have hunary : ∀ tokens, tokens.length < n + 1 → Legible tokens → UnaryRead tokens :=
      fun tokens hn hlegible => unary_agrees hbelow (Nat.le_of_lt_succ hn) hlegible
    have hproduct : ∀ tokens, tokens.length < n + 1 → Legible tokens →
        ChainRead .product tokens := fun tokens hn hlegible =>
      chain_agrees hbelow (Nat.le_of_lt_succ hn) hlegible (hunary tokens hn hlegible).operand
    have hsum : ∀ tokens, tokens.length < n + 1 → Legible tokens → ChainRead .sum tokens :=
      fun tokens hn hlegible =>
        chain_agrees hbelow (Nat.le_of_lt_succ hn) hlegible (hproduct tokens hn hlegible).operand
    refine ⟨hunary, fun l => ?_⟩
    cases l with
    | product => exact hproduct
    | sum => exact hsum

/-! ## Texts -/

theorem step_closing_top {F : List Frame} {v : Tree} (hF : Pending 1 F v a)
    (ht : t.lexeme = .closing) :
    Parser.step ⟨F ++ [], .complete v⟩ t = .error (SyntaxError.atToken .strayClosing t) := by
  have hrelease := releaseAll_of_pending (S := []) hF trivial
  simp only [Parser.step, stepComplete, ht, hrelease]

/-- The trees of tables are those of the machine, and so are the objections. -/
theorem read_eq (hlegible : Legible tokens) :
    read (table tokens stop) =
      (parseTokens tokens stop).mapError fun e => .objection e.objection := by
  have hagrees := (below (tokens.length + 1)).chain .sum tokens (Nat.lt_succ_self _) hlegible stop
    [] 0 _ rfl (fun _ _ _ _ _ _ h => nomatch h) trivial rfl
  have hmachine : parseTokens tokens stop = outcome start tokens stop := rfl
  rw [hmachine, read]
  cases hchain : chain .sum 0 (table tokens stop) with
  | error x =>
    rw [hchain] at hagrees
    obtain ⟨e, he, rfl⟩ := hagrees
    rw [start, he]
    rfl
  | ok found =>
    rw [hchain] at hagrees
    obtain ⟨s, rest, hafter, hrest, houtcome, ⟨F, v, rfl, hF⟩, hended⟩ := hagrees
    rw [start, houtcome]
    cases rest with
    | nil =>
      have hrelease := releaseAll_of_pending (S := []) hF trivial
      have hfinish : finish ⟨F ++ [], .complete v⟩ stop = .ok found.value := by
        simp only [finish, hrelease]
      rw [outcome_nil, hfinish]
      simp only [bind, Except.bind, hafter]
      rfl
    | cons t rest =>
      simp only [bind, Except.bind, hafter, table_cons]
      have hspelled := (hlegible.suffix hrest).head
      split
      · next hclosing =>
        rw [outcome_error (step_closing_top hF (isClosing_row.1 hclosing)),
          objectAt_row hspelled .strayClosing]
        rfl
      · next hclosing =>
        have hstep := step_misplaced (S := []) hF trivial (ne_operator_of_ended hended)
          (fun h => hclosing (isClosing_row.2 h)) (by simp)
        rw [if_neg (not_isEnd_row t), outcome_error hstep]
        exact congrArg Except.error (objectAt_row hspelled _)

/-- What the lexer finds is legible. -/
theorem legible_of_tokenize {text : List Char} (h : tokenize text = .ok tokens) :
    Legible tokens := by
  intro t ht
  obtain ⟨run, hrun, -⟩ := (Lexer.tokenize_eq_ok_iff.1 h).laidOut.stands t ht
  exact ⟨run, hrun.1⟩

theorem readText_eq (text : List Char) :
    readText text = (parseText text).mapError fun e => .objection e.objection := by
  rw [readText, parseText]
  split
  · rfl
  · have hblank : (Text.strip text == []) = text.all Text.isBlank := by
      rw [Bool.eq_iff_iff, beq_iff_eq, Text.strip_eq_nil_iff, List.all_eq_true]
    rw [hblank]
    split
    · rfl
    · rw [tokenRows]
      cases h : tokenize text with
      | error e => rfl
      | ok tokens => exact read_eq (legible_of_tokenize h)

/-- The descent and the machine read the same equations and object to the same values. -/
theorem parse_eq (source : Value) :
    parse source = (Equation.parse source).mapError fun e => .objection e.objection := by
  cases source with
  | text s =>
    rw [parse, readText_eq]
    cases htext : parseText s.toList with
    | error e =>
      rw [Equation.parse, htext]
      rfl
    | ok root =>
      have hparse : Equation.parse (.text s) = .ok ⟨s, root⟩ := by rw [Equation.parse, htext]; rfl
      obtain ⟨p, hp, -⟩ := exists_program_of_parse hparse
      have hresolve : root.resolve = .ok p := mapError_eq_ok_iff.1 hp
      simp only [hparse, Except.mapError, bind, Except.bind, hresolve]
      rfl
  | _ => rfl

/-- **Reading always comes to an end, with an equation or with an objection.**  No value makes the
descent look past the last row, convert a text that is no number, count the arguments of what is no
function or find a name without a meaning.  What it returns is what the machine returns, an error
being put in words. -/
theorem parse_safe (source : Value) :
    ((∃ e p, parse source = .ok e ∧ e.program = .ok p) ∨
      ∃ o, parse source = .error (.objection o)) ∧
      parse source = (Equation.parse source).mapError fun e => .objection e.objection := by
  refine ⟨?_, parse_eq source⟩
  rw [parse_eq]
  cases hparse : Equation.parse source with
  | error e => exact .inr ⟨e.objection, rfl⟩
  | ok e =>
    obtain ⟨p, hp, -⟩ := exists_program_of_parse hparse
    exact .inl ⟨e, p, rfl, hp⟩

end Descent
end SpaceCurve
