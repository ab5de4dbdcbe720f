import SpaceCurve.Equation.Parser
import SpaceCurve.Proofs.Grammar
import SpaceCurve.Proofs.Outcome

/-!
# The parser reads the grammar

`parseTokens_eq_ok_iff` says that the machine of the parser accepts a list of tokens exactly when
its lexemes are an equation nested no deeper than allowed, and that its tree is the tree of the
equation.  `IsSentence.unique` follows: the grammar is not ambiguous.

## The two directions

* **What the grammar derives, the machine reads.**  `Derives.run` follows a derivation.  A phrase
  leaves the stack it began on with some operators on top that wait for their right operand, and
  `Pending` says that a release of those gives the tree of the phrase.  A term may only begin where
  no `*` or `/` waits directly below, an expression only where no operator does at all; that is
  `Settled`.
* **What the machine reads, the grammar derives.**  `Opens w S` is the invariant of the stack: the
  lexemes of `w` open the constructs of `S`, each operator with the phrase that is its left operand.
  A release turns an operand and the operators before it into one phrase, in two strides: up to a
  term (`Opens.release_term`), and from a term up to an expression (`Opens.release_expression`).

Neither direction counts parentheses.  The number of nesting constructs on the stack is the depth
at which the next lexeme stands, and the machine compares this number with the bound each time it
opens one.
-/

set_option autoImplicit false

namespace SpaceCurve
namespace Parser

/-! ## Releasing operators -/

/-- No operator on top of the stack binds as tightly as `k`, so that an operand releases none. -/
def Settled (k : Nat) : List Frame → Prop
  | .negate :: _ => False
  | .binary op _ :: _ => op.strength < k
  | _ => True

theorem release_of_settled {k : Nat} {S : List Frame} (h : Settled k S) (v : Tree) :
    release k S v = (S, v) := by
  cases S with
  | nil => rfl
  | cons frame rest =>
    cases frame with
    | negate => exact h.elim
    | binary op left => rw [release, if_neg (Nat.not_le.2 h)]
    | group opening => rfl
    | call f name opening args => rfl

/-- What a release leaves on the stack is settled. -/
theorem settled_release (k : Nat) (S : List Frame) (v : Tree) : Settled k (release k S v).1 := by
  induction S generalizing v with
  | nil => trivial
  | cons frame rest ih =>
    cases frame with
    | negate => exact ih _
    | binary op left =>
      rw [release]
      split
      · exact ih _
      · next h => exact Nat.not_le.1 h
    | group opening => trivial
    | call f name opening args => trivial

/-- A release may be made in two strides, the operators that bind tighter first. -/
theorem release_release {j k : Nat} (hjk : j ≤ k) (S : List Frame) (v : Tree) :
    release j (release k S v).1 (release k S v).2 = release j S v := by
  induction S generalizing v with
  | nil => rfl
  | cons frame rest ih =>
    cases frame with
    | negate => exact ih _
    | binary op left =>
      by_cases hk : k ≤ op.strength
      · rw [release, if_pos hk, ih, release, if_pos (Nat.le_trans hjk hk)]
      · rw [release, if_neg hk]
    | group opening => rfl
    | call f name opening args => rfl

/-! ## The depth of nesting -/

@[simp] theorem depth_negate (S : List Frame) : depth (.negate :: S) = depth S + 1 :=
  List.countP_cons_of_pos rfl

@[simp] theorem depth_group (opening : Nat) (S : List Frame) :
    depth (.group opening :: S) = depth S + 1 :=
  List.countP_cons_of_pos rfl

@[simp] theorem depth_call (f : Func) (name opening : Nat) (args : List Tree) (S : List Frame) :
    depth (.call f name opening args :: S) = depth S + 1 :=
  List.countP_cons_of_pos rfl

@[simp] theorem depth_power (left : Tree) (S : List Frame) :
    depth (.binary .pow left :: S) = depth S + 1 :=
  List.countP_cons_of_pos rfl

theorem depth_binary {o : Operator} (ho : o ≠ .pow) (left : Tree) (S : List Frame) :
    depth (.binary o left :: S) = depth S := by
  refine List.countP_cons_of_neg ?_
  simpa [Frame.nests] using ho

/-! Of the operators that do not nest, `+` and `-` bind with one strength, `*` and `/` with
another. -/

theorem ne_pow_of_sum {o : Operator} (ho : o = .add ∨ o = .sub) : o ≠ .pow := by
  rcases ho with rfl | rfl <;> decide

theorem ne_pow_of_product {o : Operator} (ho : o = .mul ∨ o = .div) : o ≠ .pow := by
  rcases ho with rfl | rfl <;> decide

theorem strength_of_sum {o : Operator} (ho : o = .add ∨ o = .sub) : o.strength = 1 := by
  rcases ho with rfl | rfl <;> rfl

theorem strength_of_product {o : Operator} (ho : o = .mul ∨ o = .div) : o.strength = 2 := by
  rcases ho with rfl | rfl <;> rfl

theorem sum_or_product {o : Operator} (ho : o ≠ .pow) :
    (o = .add ∨ o = .sub) ∨ (o = .mul ∨ o = .div) := by
  cases o with
  | pow => exact absurd rfl ho
  | add => exact .inl (.inl rfl)
  | sub => exact .inl (.inr rfl)
  | mul => exact .inr (.inl rfl)
  | div => exact .inr (.inr rfl)

theorem nest_eq_ok_iff {frame : Frame} {S S' : List Frame} {t : Token} :
    nest frame S t = .ok S' ↔ depth S < Lexicon.maxDepth ∧ S' = frame :: S := by
  rw [nest]
  split
  · next h => simp [Nat.not_lt.2 h]
  · next h => simp [Nat.not_le.1 h, eq_comm]

/-! ## What the grammar derives, the machine reads

The operators that a phrase leaves behind are those whose right operand is still growing: after
`a + b * c` they are the sum with `a` and the product with `b`, and `c` is the operand. -/

/-- With the operand `v`, a release of strength `k` or less takes the frames of `F` off the stack
and makes `t` of them. -/
def Pending (k : Nat) (F : List Frame) (v t : Tree) : Prop :=
  ∀ j ≤ k, ∀ S, release j (F ++ S) v = release j S t

theorem pending_nil (k : Nat) (v : Tree) : Pending k [] v v := fun _ _ _ => rfl

theorem Pending.mono {j k : Nat} {F : List Frame} {v t : Tree} (h : Pending k F v t)
    (hjk : j ≤ k) : Pending j F v t :=
  fun i hi => h i (Nat.le_trans hi hjk)

theorem Pending.negate {k : Nat} {F : List Frame} {v t : Tree} (h : Pending k F v t) :
    Pending k (F ++ [.negate]) v (.unary Lexicon.negation t) := by
  intro j hj S
  rw [List.append_assoc, h j hj]
  rfl

theorem Pending.binary {k : Nat} {F : List Frame} {v t : Tree} (h : Pending k F v t)
    {o : Operator} (ho : k ≤ o.strength) (left : Tree) :
    Pending k (F ++ [.binary o left]) v (.binary o.sign left t) := by
  intro j hj S
  rw [List.append_assoc, h j hj, List.singleton_append, release, if_pos (Nat.le_trans hj ho)]

/-- The state after a phrase with the tree `t` that began on the stack `S`. -/
def Reached (S : List Frame) (t : Tree) : Phrase → State → Prop
  | .primary, s => s = ⟨S, .complete t⟩
  | .unary, s => ∃ F v, s = ⟨F ++ S, .complete v⟩ ∧ Pending 3 F v t
  | .power, s => ∃ F v, s = ⟨F ++ S, .complete v⟩ ∧ Pending 3 F v t
  | .term, s => ∃ F v, s = ⟨F ++ S, .complete v⟩ ∧ Pending 2 F v t
  | .expression, s => ∃ F v, s = ⟨F ++ S, .complete v⟩ ∧ Pending 1 F v t
  | .call f, s => ∃ name opening args F v a,
      s = ⟨F ++ .call f name opening args :: S, .complete v⟩ ∧ Pending 1 F v a ∧
        t = .call f.spelling (args ++ [a])

/-- Where a phrase may begin. -/
def Entry (S : List Frame) : Phrase → Prop
  | .expression => Settled 1 S
  | .term => Settled 2 S
  | _ => True

theorem Settled.mono {j k : Nat} {S : List Frame} (h : Settled j S) (hjk : j ≤ k) :
    Settled k S := by
  cases S with
  | nil => trivial
  | cons frame rest =>
    cases frame with
    | negate => exact h
    | binary op left => exact Nat.lt_of_lt_of_le h hjk
    | group opening => trivial
    | call f name opening args => trivial

/-! One step for each way in which the grammar puts lexemes around phrases. -/

variable {S F : List Frame} {t : Token} {v a : Tree}

theorem step_minus (ht : t.lexeme = .operator .sub) (hS : depth S < Lexicon.maxDepth) :
    step ⟨S, .operand⟩ t = .ok ⟨.negate :: S, .operand⟩ := by
  simp only [step, stepOperand, ht, nest_eq_ok_iff.2 ⟨hS, rfl⟩]
  rfl

theorem step_opening (ht : t.lexeme = .opening) (hS : depth S < Lexicon.maxDepth) :
    step ⟨S, .operand⟩ t = .ok ⟨.group t.position :: S, .operand⟩ := by
  simp only [step, stepOperand, ht, nest_eq_ok_iff.2 ⟨hS, rfl⟩]
  rfl

theorem step_function {f : Func} (ht : t.lexeme = .symbol (.function f)) :
    step ⟨S, .operand⟩ t = .ok ⟨S, .callee f t.position⟩ := by
  simp only [step, stepOperand, ht]

theorem step_callee {f : Func} {name : Nat} (ht : t.lexeme = .opening)
    (hS : depth S < Lexicon.maxDepth) :
    step ⟨S, .callee f name⟩ t = .ok ⟨.call f name t.position [] :: S, .operand⟩ := by
  simp only [step, ht, nest_eq_ok_iff.2 ⟨hS, rfl⟩]
  rfl

theorem step_power (ht : t.lexeme = .operator .pow) (hS : depth S < Lexicon.maxDepth) :
    step ⟨S, .complete v⟩ t = .ok ⟨.binary .pow v :: S, .operand⟩ := by
  simp only [step, stepComplete, ht, nest_eq_ok_iff.2 ⟨hS, rfl⟩]
  rfl

theorem step_operator {o : Operator} (ht : t.lexeme = .operator o) (ho : o ≠ .pow) :
    step ⟨S, .complete v⟩ t =
      .ok ⟨.binary o (release o.strength S v).2 :: (release o.strength S v).1, .operand⟩ := by
  cases o with
  | pow => exact absurd rfl ho
  | add => simp only [step, stepComplete, ht]
  | sub => simp only [step, stepComplete, ht]
  | mul => simp only [step, stepComplete, ht]
  | div => simp only [step, stepComplete, ht]

/-- An operator takes the operand that the pending frames make. -/
theorem step_operator_of_pending {o : Operator} (ht : t.lexeme = .operator o) (ho : o ≠ .pow)
    (hF : Pending o.strength F v a) (hS : Settled o.strength S) :
    step ⟨F ++ S, .complete v⟩ t = .ok ⟨.binary o a :: S, .operand⟩ := by
  rw [step_operator ht ho, hF _ (Nat.le_refl _), release_of_settled hS]

theorem step_comma {f : Func} {name opening : Nat} {args : List Tree} (ht : t.lexeme = .comma)
    (hF : Pending 1 F v a) :
    step ⟨F ++ .call f name opening args :: S, .complete v⟩ t =
      .ok ⟨.call f name opening (args ++ [a]) :: S, .operand⟩ := by
  simp only [step, stepComplete, ht, releaseAll, hF 1 (Nat.le_refl _), release]

theorem step_closing_group {opening : Nat} (ht : t.lexeme = .closing) (hF : Pending 1 F v a) :
    step ⟨F ++ .group opening :: S, .complete v⟩ t = .ok ⟨S, .complete a⟩ := by
  simp only [step, stepComplete, ht, releaseAll, hF 1 (Nat.le_refl _), release]

theorem step_closing_call {f : Func} {name opening : Nat} {args : List Tree}
    (ht : t.lexeme = .closing) (hF : Pending 1 F v a) (hn : (args ++ [a]).length = f.arity) :
    step ⟨F ++ .call f name opening args :: S, .complete v⟩ t =
      .ok ⟨S, .complete (.call f.spelling (args ++ [a]))⟩ := by
  simp only [step, stepComplete, ht, releaseAll, hF 1 (Nat.le_refl _), release, close, hn,
    beq_self_eq_true, if_true]

theorem run_cons {s s' : State} (h : step s t = .ok s') (rest : List Token) :
    (t :: rest).foldlM step s = rest.foldlM step s' := by
  rw [List.foldlM_cons, h]
  rfl

theorem run_append {s s' : State} {tokens : List Token} (h : tokens.foldlM step s = .ok s')
    (rest : List Token) : (tokens ++ rest).foldlM step s = rest.foldlM step s' := by
  rw [List.foldlM_append, h]
  rfl

/-- Tokens whose lexemes are two phrases with a lexeme between them. -/
theorem exists_split {tokens : List Token} {l r : List Enclosed} {x : Enclosed}
    (h : tokens.map Token.lexeme = (l ++ x :: r).map Enclosed.lexeme) :
    ∃ left t right, tokens = left ++ t :: right ∧
      left.map Token.lexeme = l.map Enclosed.lexeme ∧ t.lexeme = x.lexeme ∧
      right.map Token.lexeme = r.map Enclosed.lexeme := by
  rw [List.map_append, List.map_cons, List.map_eq_append_iff] at h
  obtain ⟨left, rest, rfl, hl, hrest⟩ := h
  obtain ⟨t, right, rfl, ht, hr⟩ := List.map_eq_cons_iff.1 hrest
  exact ⟨left, t, right, rfl, hl, ht, hr⟩

/-- **The machine reads every phrase of the grammar**, from every stack on which the phrase may
begin, provided that no lexeme is nested too deeply. -/
theorem run_of_derives {p : Phrase} {d : Nat} {w : List Enclosed} {t : Tree}
    (h : Derives p d w t) (hw : Bounded Lexicon.maxDepth w) {S : List Frame} (hd : depth S = d)
    (hS : Entry S p) {tokens : List Token}
    (htokens : tokens.map Token.lexeme = w.map Enclosed.lexeme) :
    ∃ s, tokens.foldlM step ⟨S, .operand⟩ = .ok s ∧ Reached S t p s := by
  induction h generalizing S tokens with
  | ofTerm _ ih =>
    obtain ⟨s, hs, F, v, rfl, hF⟩ := ih hw hd (Settled.mono hS (by decide)) htokens
    exact ⟨_, hs, F, v, rfl, hF.mono (by decide)⟩
  | ofUnary _ ih =>
    obtain ⟨s, hs, F, v, rfl, hF⟩ := ih hw hd trivial htokens
    exact ⟨_, hs, F, v, rfl, hF.mono (by decide)⟩
  | ofPower _ ih => exact ih hw hd trivial htokens
  | ofPrimary _ ih =>
    obtain ⟨s, hs, rfl⟩ := ih hw hd trivial htokens
    exact ⟨_, hs, [], _, rfl, pending_nil 3 _⟩
  | @sum d o l r a b ho _ _ ihl ihr =>
    obtain ⟨hwl, hwr⟩ := bounded_append.1 hw
    obtain ⟨left, t, right, rfl, hleft, ht, hright⟩ := exists_split htokens
    have hpow : o ≠ .pow := ne_pow_of_sum ho
    have hk : o.strength = 1 := strength_of_sum ho
    obtain ⟨s, hs, F, v, rfl, hF⟩ := ihl hwl hd hS hleft
    -- the sign takes the whole left operand, since nothing below it on the stack binds as tightly
    have hstep := step_operator_of_pending ht hpow (hk ▸ hF) (by rwa [hk])
    obtain ⟨s, hs', G, u, rfl, hG⟩ := ihr (S := .binary o a :: S) (bounded_cons.1 hwr).2
      ((depth_binary hpow a S).trans hd) (show o.strength < 2 by omega) hright
    refine ⟨_, ?_, G ++ [.binary o a], u, rfl, (hG.mono (by decide)).binary (by omega) a⟩
    rw [run_append hs, run_cons hstep, hs', List.append_assoc]
    rfl
  | @product d o l r a b ho _ _ ihl ihr =>
    obtain ⟨hwl, hwr⟩ := bounded_append.1 hw
    obtain ⟨left, t, right, rfl, hleft, ht, hright⟩ := exists_split htokens
    have hpow : o ≠ .pow := ne_pow_of_product ho
    have hk : o.strength = 2 := strength_of_product ho
    obtain ⟨s, hs, F, v, rfl, hF⟩ := ihl hwl hd hS hleft
    have hstep := step_operator_of_pending ht hpow (hk ▸ hF) (by rwa [hk])
    obtain ⟨s, hs', G, u, rfl, hG⟩ := ihr (S := .binary o a :: S) (bounded_cons.1 hwr).2
      ((depth_binary hpow a S).trans hd) trivial hright
    refine ⟨_, ?_, G ++ [.binary o a], u, rfl, (hG.mono (by decide)).binary (by omega) a⟩
    rw [run_append hs, run_cons hstep, hs', List.append_assoc]
    rfl
  | @minus d w a ha ih =>
    obtain ⟨-, hw⟩ := bounded_cons.1 hw
    obtain ⟨t, rest, rfl, ht, hrest⟩ := List.map_eq_cons_iff.1 htokens
    have hlt : depth S < Lexicon.maxDepth := hd ▸ ha.le_of_bounded hw
    obtain ⟨s, hs, F, v, rfl, hF⟩ := ih (S := .negate :: S) hw (by simp [hd]) trivial hrest
    refine ⟨_, ?_, F ++ [.negate], v, rfl, hF.negate⟩
    rw [run_cons (step_minus ht hlt), hs, List.append_assoc]
    rfl
  | @raised d l r a b _ hb ihl ihr =>
    obtain ⟨hwl, hwr⟩ := bounded_append.1 hw
    obtain ⟨-, hwr⟩ := bounded_cons.1 hwr
    obtain ⟨left, t, right, rfl, hleft, ht, hright⟩ := exists_split htokens
    have hlt : depth S < Lexicon.maxDepth := hd ▸ hb.le_of_bounded hwr
    obtain ⟨s, hs, rfl⟩ := ihl hwl hd trivial hleft
    obtain ⟨s, hs', G, u, rfl, hG⟩ :=
      ihr (S := .binary .pow a :: S) hwr (by simp [hd]) trivial hright
    refine ⟨_, ?_, G ++ [.binary .pow a], u, rfl, hG.binary (by decide) a⟩
    rw [run_append hs, run_cons (step_power ht hlt), hs', List.append_assoc]
    rfl
  | number d text =>
    obtain ⟨t, rest, rfl, ht, hrest⟩ := List.map_eq_cons_iff.1 htokens
    obtain rfl := List.map_eq_nil_iff.1 hrest
    have hstep : step ⟨S, .operand⟩ t = .ok ⟨S, .complete (.number (Numeral.decimal text))⟩ := by
      simp only [step, stepOperand, ht]
    exact ⟨_, run_cons hstep [], rfl⟩
  | parameter d =>
    obtain ⟨t, rest, rfl, ht, hrest⟩ := List.map_eq_cons_iff.1 htokens
    obtain rfl := List.map_eq_nil_iff.1 hrest
    have hstep : step ⟨S, .operand⟩ t = .ok ⟨S, .complete (.parameter Symbol.parameterName)⟩ := by
      simp only [step, stepOperand, ht]
    exact ⟨_, run_cons hstep [], rfl⟩
  | constant d c =>
    obtain ⟨t, rest, rfl, ht, hrest⟩ := List.map_eq_cons_iff.1 htokens
    obtain rfl := List.map_eq_nil_iff.1 hrest
    have hstep : step ⟨S, .operand⟩ t = .ok ⟨S, .complete (.constant c.spelling)⟩ := by
      simp only [step, stepOperand, ht]
    exact ⟨_, run_cons hstep [], rfl⟩
  | @group d w a ha ih =>
    obtain ⟨hwl, -⟩ := bounded_append.1 hw
    obtain ⟨-, hwl⟩ := bounded_cons.1 hwl
    obtain ⟨left, close, right, rfl, hleft, hclose, hright⟩ := exists_split htokens
    obtain rfl := List.map_eq_nil_iff.1 hright
    obtain ⟨t, rest, rfl, ht, hrest⟩ := List.map_eq_cons_iff.1 hleft
    have hlt : depth S < Lexicon.maxDepth := hd ▸ ha.le_of_bounded hwl
    obtain ⟨s, hs, F, v, rfl, hF⟩ :=
      ih (S := .group t.position :: S) hwl (by simp [hd]) trivial hrest
    refine ⟨_, ?_, rfl⟩
    rw [List.cons_append, run_cons (step_opening ht hlt), run_append hs,
      run_cons (step_closing_group hclose hF)]
    rfl
  | @firstArgument d w a f ha ih =>
    obtain ⟨-, hw⟩ := bounded_cons.1 hw
    obtain ⟨-, hw⟩ := bounded_cons.1 hw
    obtain ⟨name, rest, rfl, hname, hrest⟩ := List.map_eq_cons_iff.1 htokens
    obtain ⟨t, rest, rfl, ht, hrest⟩ := List.map_eq_cons_iff.1 hrest
    have hlt : depth S < Lexicon.maxDepth := hd ▸ ha.le_of_bounded hw
    obtain ⟨s, hs, F, v, rfl, hF⟩ :=
      ih (S := .call f name.position t.position [] :: S) hw (by simp [hd]) trivial hrest
    refine ⟨_, ?_, name.position, t.position, [], F, v, a, rfl, hF, rfl⟩
    rw [run_cons (step_function hname), run_cons (step_callee ht hlt), hs]
  | @nextArgument d f l r args a _ _ ihl ihr =>
    obtain ⟨hwl, hwr⟩ := bounded_append.1 hw
    obtain ⟨left, t, right, rfl, hleft, ht, hright⟩ := exists_split htokens
    obtain ⟨s, hs, name, opening, first, F, v, b, rfl, hF, hargs⟩ := ihl hwl hd trivial hleft
    obtain rfl : args = first ++ [b] := (Tree.call.inj hargs).2
    obtain ⟨s, hs', G, u, rfl, hG⟩ := ihr (S := .call f name opening (first ++ [b]) :: S)
      (bounded_cons.1 hwr).2 (by simp [hd]) trivial hright
    refine ⟨_, ?_, name, opening, first ++ [b], G, u, a, rfl, hG, rfl⟩
    rw [run_append hs, run_cons (step_comma ht hF), hs']
  | @called d f w args _ hn ih =>
    obtain ⟨hwl, -⟩ := bounded_append.1 hw
    obtain ⟨left, close, right, rfl, hleft, hclose, hright⟩ := exists_split htokens
    obtain rfl := List.map_eq_nil_iff.1 hright
    obtain ⟨s, hs, name, opening, first, F, v, a, rfl, hF, hargs⟩ := ih hwl hd trivial hleft
    obtain rfl : args = first ++ [a] := (Tree.call.inj hargs).2
    refine ⟨_, ?_, rfl⟩
    rw [run_append hs, run_cons (step_closing_call hclose hF hn)]
    rfl

/-! ## What the machine reads, the grammar derives -/

/-- The lexemes of `w` open the constructs of the stack: each operator stands after the phrase
that is its left operand, a call after the arguments read so far, and every construct that nests
had room to do so. -/
inductive Opens : List Enclosed → List Frame → Prop
  | nil : Opens [] []
  | negate {w : List Enclosed} {S : List Frame} (h : Opens w S)
      (hS : depth S < Lexicon.maxDepth) :
      Opens (w ++ [⟨.operator .sub, depth S⟩]) (.negate :: S)
  | power {w l : List Enclosed} {S : List Frame} {a : Tree} (h : Opens w S)
      (hS : depth S < Lexicon.maxDepth) (hl : Derives .primary (depth S) l a) :
      Opens (w ++ (l ++ [⟨.operator .pow, depth S⟩])) (.binary .pow a :: S)
  | product {w l : List Enclosed} {S : List Frame} {a : Tree} {o : Operator}
      (ho : o = .mul ∨ o = .div) (h : Opens w S) (hS : Settled 2 S)
      (hl : Derives .term (depth S) l a) :
      Opens (w ++ (l ++ [⟨.operator o, depth S⟩])) (.binary o a :: S)
  | sum {w l : List Enclosed} {S : List Frame} {a : Tree} {o : Operator}
      (ho : o = .add ∨ o = .sub) (h : Opens w S) (hS : Settled 1 S)
      (hl : Derives .expression (depth S) l a) :
      Opens (w ++ (l ++ [⟨.operator o, depth S⟩])) (.binary o a :: S)
  | group {w : List Enclosed} {S : List Frame} (opening : Nat) (h : Opens w S)
      (hS : depth S < Lexicon.maxDepth) :
      Opens (w ++ [⟨.opening, depth S⟩]) (.group opening :: S)
  | call {w : List Enclosed} {S : List Frame} (f : Func) (name opening : Nat) (h : Opens w S)
      (hS : depth S < Lexicon.maxDepth) :
      Opens (w ++ [⟨.symbol (.function f), depth S⟩, ⟨.opening, depth S⟩])
        (.call f name opening [] :: S)
  | argument {w l : List Enclosed} {S : List Frame} {f : Func} {args : List Tree}
      (name opening : Nat) (h : Opens w S) (hS : depth S < Lexicon.maxDepth)
      (hl : Derives (.call f) (depth S) l (.call f.spelling args)) :
      Opens (w ++ (l ++ [⟨.comma, depth S + 1⟩])) (.call f name opening args :: S)

/-- The stack never nests deeper than allowed. -/
theorem Opens.depth_le {w : List Enclosed} {S : List Frame} (h : Opens w S) :
    depth S ≤ Lexicon.maxDepth := by
  induction h with
  | nil => exact Nat.zero_le _
  | negate _ hS _ => rwa [depth_negate]
  | power _ hS _ _ => rwa [depth_power]
  | product ho _ _ _ ih => rwa [depth_binary (ne_pow_of_product ho)]
  | sum ho _ _ _ ih => rwa [depth_binary (ne_pow_of_sum ho)]
  | group _ _ hS _ => rwa [depth_group]
  | call _ _ _ _ hS _ => rwa [depth_call]
  | argument _ _ _ hS _ _ => rwa [depth_call]

/-- **A release of `*` and `/` ends with a term.**  The induction is on the operators that wait:
a minus sign or a power makes a longer unary phrase of the operand, and a product is a term, below
which no other product can be waiting. -/
theorem Opens.release_term {w : List Enclosed} {S : List Frame} (h : Opens w S)
    {v : List Enclosed} {a : Tree} (hv : Derives .unary (depth S) v a) :
    ∃ w' v', w' ++ v' = w ++ v ∧ Opens w' (release 2 S a).1 ∧
      Derives .term (depth (release 2 S a).1) v' (release 2 S a).2 := by
  induction h generalizing v a with
  | nil => exact ⟨[], v, rfl, .nil, .ofUnary hv⟩
  | @negate w S _ _ ih =>
    rw [depth_negate] at hv
    obtain ⟨w', v', hw, hopens, hterm⟩ := ih (.minus hv)
    exact ⟨w', v', by simp [hw], hopens, hterm⟩
  | @power w l S b _ _ hl ih =>
    rw [depth_power] at hv
    obtain ⟨w', v', hw, hopens, hterm⟩ := ih (.ofPower (.raised hl hv))
    exact ⟨w', v', by simp [hw], hopens, hterm⟩
  | @product w l S b o ho h hS hl _ =>
    have hpow : o ≠ .pow := ne_pow_of_product ho
    have hk : o.strength = 2 := strength_of_product ho
    rw [depth_binary hpow] at hv
    have hrelease : release 2 (.binary o b :: S) a = (S, .binary o.sign b a) := by
      rw [release, if_pos (by omega), release_of_settled hS]
    rw [hrelease]
    exact ⟨w, _, by simp, h, .product ho hl hv⟩
  | @sum w l S b o ho h hS hl _ =>
    have hk : o.strength = 1 := strength_of_sum ho
    have hrelease : release 2 (.binary o b :: S) a = (.binary o b :: S, a) := by
      rw [release, if_neg (by omega)]
    rw [hrelease]
    exact ⟨_, v, rfl, .sum ho h hS hl, .ofUnary hv⟩
  | group opening h hS _ => exact ⟨_, v, rfl, .group opening h hS, .ofUnary hv⟩
  | call f name opening h hS _ => exact ⟨_, v, rfl, .call f name opening h hS, .ofUnary hv⟩
  | argument name opening h hS hl _ =>
    exact ⟨_, v, rfl, .argument name opening h hS hl, .ofUnary hv⟩

/-- A release of `+` and `-` after that of `*` and `/` ends with an expression: at most one sum is
waiting. -/
theorem Opens.release_expression {w : List Enclosed} {S : List Frame} (h : Opens w S)
    (hset : Settled 2 S) {v : List Enclosed} {a : Tree} (hv : Derives .term (depth S) v a) :
    ∃ w' v', w' ++ v' = w ++ v ∧ Opens w' (release 1 S a).1 ∧
      Derives .expression (depth (release 1 S a).1) v' (release 1 S a).2 := by
  cases h with
  | nil => exact ⟨[], v, rfl, .nil, .ofTerm hv⟩
  | negate => exact hset.elim
  | power => exact absurd (show Operator.pow.strength < 2 from hset) (by decide)
  | @product w l S b o ho =>
    have hk : o.strength = 2 := strength_of_product ho
    exact absurd (show o.strength < 2 from hset) (by omega)
  | @sum w l S b o ho h hS hl =>
    have hpow : o ≠ .pow := ne_pow_of_sum ho
    have hk : o.strength = 1 := strength_of_sum ho
    rw [depth_binary hpow] at hv
    have hrelease : release 1 (.binary o b :: S) a = (S, .binary o.sign b a) := by
      rw [release, if_pos (by omega), release_of_settled hS]
    rw [hrelease]
    exact ⟨w, _, by simp, h, .sum ho hl hv⟩
  | group opening h hS => exact ⟨_, v, rfl, .group opening h hS, .ofTerm hv⟩
  | call f name opening h hS => exact ⟨_, v, rfl, .call f name opening h hS, .ofTerm hv⟩
  | argument name opening h hS hl =>
    exact ⟨_, v, rfl, .argument name opening h hS hl, .ofTerm hv⟩

/-- A release of all operators ends with an expression. -/
theorem Opens.releaseAll {w : List Enclosed} {S : List Frame} (h : Opens w S)
    {v : List Enclosed} {a : Tree} (hv : Derives .unary (depth S) v a) :
    ∃ w' v', w' ++ v' = w ++ v ∧ Opens w' (releaseAll S a).1 ∧
      Derives .expression (depth (releaseAll S a).1) v' (releaseAll S a).2 := by
  obtain ⟨w₁, v₁, hw₁, hopens, hterm⟩ := h.release_term hv
  obtain ⟨w₂, v₂, hw₂, hall⟩ := hopens.release_expression (settled_release 2 S a) hterm
  rw [release_release (by decide)] at hall
  exact ⟨w₂, v₂, hw₂.trans hw₁, hall⟩

/-- An argument that is complete extends the call on top of the stack. -/
theorem Opens.exists_call {w : List Enclosed} {S : List Frame} {f : Func} {name opening : Nat}
    {args : List Tree} (h : Opens w (.call f name opening args :: S)) {v : List Enclosed}
    {a : Tree} (hv : Derives .expression (depth S + 1) v a) :
    ∃ w' l, w' ++ l = w ++ v ∧ Opens w' S ∧ depth S < Lexicon.maxDepth ∧
      Derives (.call f) (depth S) l (.call f.spelling (args ++ [a])) := by
  cases h with
  | call f name opening h hS => exact ⟨_, _, by simp, h, hS, .firstArgument f hv⟩
  | argument name opening h hS hl => exact ⟨_, _, by simp, h, hS, .nextArgument hl hv⟩

/-- What the lexemes read so far say about the state of the machine. -/
inductive Follows : List Enclosed → State → Prop
  | operand {w : List Enclosed} {S : List Frame} (h : Opens w S) : Follows w ⟨S, .operand⟩
  | callee {w : List Enclosed} {S : List Frame} (f : Func) (name : Nat) (h : Opens w S) :
      Follows (w ++ [⟨.symbol (.function f), depth S⟩]) ⟨S, .callee f name⟩
  | complete {w v : List Enclosed} {S : List Frame} {a : Tree} (h : Opens w S)
      (hv : Derives .primary (depth S) v a) : Follows (w ++ v) ⟨S, .complete a⟩

theorem map_nest_eq_ok_iff {frame : Frame} {S : List Frame} {t : Token} {s : State}
    {g : List Frame → State} :
    (nest frame S t).map g = .ok s ↔ depth S < Lexicon.maxDepth ∧ g (frame :: S) = s := by
  rw [map_eq_ok_iff]
  constructor
  · rintro ⟨S', hS', rfl⟩
    obtain ⟨hS, rfl⟩ := nest_eq_ok_iff.1 hS'
    exact ⟨hS, rfl⟩
  · rintro ⟨hS, rfl⟩
    exact ⟨_, nest_eq_ok_iff.2 ⟨hS, rfl⟩, rfl⟩

theorem close_eq_ok_iff {f : Func} {name : Nat} {args : List Tree} {rest : List Frame}
    {s : State} :
    close f name args rest = .ok s ↔
      args.length = f.arity ∧ (⟨rest, .complete (.call f.spelling args)⟩ : State) = s := by
  by_cases h : args.length = f.arity
  · simp [close, h]
  · simp [close, h]

/-- Every function takes an argument. -/
theorem arity_pos (f : Func) : 0 < f.arity := by
  cases f <;> decide

theorem Opens.stepOperand {w : List Enclosed} {S : List Frame} {t : Token} {s : State}
    (h : Opens w S) (hs : stepOperand S t = .ok s) : Follows (w ++ [⟨t.lexeme, depth S⟩]) s := by
  rw [Parser.stepOperand.eq_def] at hs
  split at hs
  · next text ht =>
    cases hs
    rw [ht]
    exact .complete h (.number _ text)
  · next ht =>
    cases hs
    rw [ht]
    exact .complete h (.parameter _)
  · next c ht =>
    cases hs
    rw [ht]
    exact .complete h (.constant _ c)
  · next f ht =>
    cases hs
    rw [ht]
    exact .callee f _ h
  · next ht =>
    obtain ⟨hS, rfl⟩ := map_nest_eq_ok_iff.1 hs
    rw [ht]
    exact .operand (.negate h hS)
  · next ht =>
    obtain ⟨hS, rfl⟩ := map_nest_eq_ok_iff.1 hs
    rw [ht]
    exact .operand (.group _ h hS)
  · split at hs
    · next f name _ _ =>
      -- a call is closed before its first argument, but no function does without one
      exact absurd (close_eq_ok_iff.1 hs).1 (Nat.ne_of_lt (arity_pos f))
    · cases hs
  · cases hs
  · cases hs

theorem Opens.operator {w v : List Enclosed} {S : List Frame} {a : Tree} {o : Operator}
    (h : Opens w S) (hv : Derives .unary (depth S) v a) (ho : o ≠ .pow) :
    ∃ d ≤ Lexicon.maxDepth, Opens (w ++ v ++ [⟨.operator o, d⟩])
      (.binary o (release o.strength S a).2 :: (release o.strength S a).1) := by
  rcases sum_or_product ho with hsum | hproduct
  · have hk : o.strength = 1 := strength_of_sum hsum
    obtain ⟨w', v', hw, hopens, hexpression⟩ := h.releaseAll hv
    refine ⟨_, hopens.depth_le, ?_⟩
    rw [hk, ← hw, List.append_assoc]
    exact .sum hsum hopens (settled_release 1 S a) hexpression
  · have hk : o.strength = 2 := strength_of_product hproduct
    obtain ⟨w', v', hw, hopens, hterm⟩ := h.release_term hv
    refine ⟨_, hopens.depth_le, ?_⟩
    rw [hk, ← hw, List.append_assoc]
    exact .product hproduct hopens (settled_release 2 S a) hterm

theorem Opens.stepComplete {w v : List Enclosed} {S : List Frame} {a : Tree} {t : Token}
    {s : State} (h : Opens w S) (hv : Derives .primary (depth S) v a)
    (hs : stepComplete S a t = .ok s) :
    ∃ d ≤ Lexicon.maxDepth, Follows (w ++ v ++ [⟨t.lexeme, d⟩]) s := by
  have hunary : Derives .unary (depth S) v a := .ofPower (.ofPrimary hv)
  obtain ⟨w', v', hw, hopens, hexpression⟩ := h.releaseAll hunary
  rw [Parser.stepComplete.eq_def] at hs
  split at hs
  · next ht =>
    obtain ⟨hS, rfl⟩ := map_nest_eq_ok_iff.1 hs
    refine ⟨depth S, h.depth_le, ?_⟩
    rw [ht, List.append_assoc]
    exact .operand (.power h hS hv)
  · next o hpow ht =>
    cases hs
    obtain ⟨d, hd, hoperator⟩ := h.operator hunary (o := o) fun ho => hpow ho
    exact ⟨d, hd, ht ▸ .operand hoperator⟩
  · next ht =>
    split at hs
    · next f name opening args rest arg hrelease =>
      cases hs
      rw [hrelease, depth_call] at hexpression
      rw [hrelease] at hopens
      obtain ⟨w₀, l, hw₀, hrest, hS, hcall⟩ := hopens.exists_call hexpression
      refine ⟨depth rest + 1, hS, ?_⟩
      rw [ht, ← hw, ← hw₀, List.append_assoc]
      exact .operand (.argument name opening hrest hS hcall)
    · cases hs
  · next ht =>
    split at hs
    · next opening rest inner hrelease =>
      cases hs
      rw [hrelease, depth_group] at hexpression
      rw [hrelease] at hopens
      cases hopens with
      | @group w₀ _ _ hrest hS =>
        refine ⟨depth rest, hrest.depth_le, ?_⟩
        have hgroup := Follows.complete hrest (.group hexpression)
        rw [ht, ← hw]
        simpa using hgroup
    · next f name opening args rest arg hrelease =>
      obtain ⟨hn, rfl⟩ := close_eq_ok_iff.1 hs
      rw [hrelease, depth_call] at hexpression
      rw [hrelease] at hopens
      obtain ⟨w₀, l, hw₀, hrest, -, hcall⟩ := hopens.exists_call hexpression
      refine ⟨depth rest, hrest.depth_le, ?_⟩
      rw [ht, ← hw, ← hw₀, List.append_assoc]
      exact .complete hrest (.called hcall hn)
    · cases hs
  · cases hs

/-- **One step of the machine keeps to the grammar.** -/
theorem Follows.step {w : List Enclosed} {s s' : State} {t : Token} (h : Follows w s)
    (hs : step s t = .ok s') :
    ∃ d ≤ Lexicon.maxDepth, Follows (w ++ [⟨t.lexeme, d⟩]) s' := by
  cases h with
  | operand h => exact ⟨_, h.depth_le, h.stepOperand hs⟩
  | complete h hv => exact h.stepComplete hv hs
  | @callee w S f name h =>
    simp only [Parser.step] at hs
    split at hs
    · next ht =>
      obtain ⟨hS, rfl⟩ := map_nest_eq_ok_iff.1 hs
      refine ⟨_, h.depth_le, ?_⟩
      rw [ht, List.append_assoc]
      exact .operand (.call f name _ h hS)
    · cases hs

/-- **So does a whole run.** -/
theorem Follows.run {tokens : List Token} {w : List Enclosed} {s s' : State} (h : Follows w s)
    (hs : tokens.foldlM Parser.step s = .ok s') :
    ∃ v, v.map Enclosed.lexeme = tokens.map Token.lexeme ∧ Bounded Lexicon.maxDepth v ∧
      Follows (w ++ v) s' := by
  induction tokens generalizing w s with
  | nil =>
    cases hs
    exact ⟨[], rfl, bounded_nil, by simpa using h⟩
  | cons t rest ih =>
    cases ht : Parser.step s t with
    | error e =>
      rw [List.foldlM_cons, ht] at hs
      cases hs
    | ok s₁ =>
      rw [run_cons ht] at hs
      obtain ⟨d, hd, hstep⟩ := h.step ht
      obtain ⟨v, hv, hbound, hrun⟩ := ih hstep hs
      refine ⟨⟨t.lexeme, d⟩ :: v, by simp [hv], bounded_cons.2 ⟨hd, hbound⟩, ?_⟩
      simpa using hrun

/-- No operator is left waiting after a release of all. -/
theorem not_settled_binary {o : Operator} {left : Tree} {S : List Frame} :
    ¬ Settled 1 (.binary o left :: S) := by
  have hpos : 1 ≤ o.strength := by cases o <;> decide
  exact Nat.not_lt.2 hpos

/-- The machine ends with a tree only when the lexemes are an expression. -/
theorem Follows.finish {w : List Enclosed} {s : State} {stop : Nat} {tree : Tree}
    (h : Follows w s) (hs : finish s stop = .ok tree) : Derives .expression 0 w tree := by
  cases h with
  | operand => cases hs
  | callee => cases hs
  | @complete w v S a h hv =>
    obtain ⟨w', v', hw, hopens, hexpression⟩ := h.releaseAll (.ofPower (.ofPrimary hv))
    have hset : Settled 1 (Parser.releaseAll S a).1 := settled_release 1 S a
    simp only [Parser.finish] at hs
    split at hs
    · cases hs
    · cases hs
    · next stack tree' hgroup hcall hrelease =>
      cases hs
      rw [hrelease] at hopens hexpression hset
      cases hopens with
      | nil => rwa [← hw]
      | negate => exact hset.elim
      | power => exact (not_settled_binary hset).elim
      | product => exact (not_settled_binary hset).elim
      | sum => exact (not_settled_binary hset).elim
      | group opening => exact absurd rfl (hgroup opening _)
      | call f name opening => exact absurd rfl (hcall _ _ _ _ _)
      | argument name opening => exact absurd rfl (hcall _ _ _ _ _)

/-- **The parser accepts exactly the grammar**, and its tree is the tree of the equation. -/
theorem parseTokens_eq_ok_iff (stop : Nat) {tokens : List Token} {tree : Tree} :
    parseTokens tokens stop = .ok tree ↔
      IsSentence Lexicon.maxDepth (tokens.map Token.lexeme) tree := by
  constructor
  · intro h
    obtain ⟨s, hrun, hfinish⟩ := bind_eq_ok_iff.1 h
    obtain ⟨w, hw, hbound, hfollows⟩ := (Follows.operand Opens.nil).run hrun
    exact ⟨w, hw, hfollows.finish hfinish, hbound⟩
  · rintro ⟨w, hw, hderives, hbound⟩
    obtain ⟨s, hrun, F, v, rfl, hF⟩ :=
      run_of_derives hderives hbound (S := []) rfl trivial hw.symm
    have hrelease : releaseAll (F ++ []) v = ([], tree) := hF 1 (Nat.le_refl _) []
    refine bind_eq_ok_iff.2 ⟨_, hrun, ?_⟩
    simp only [finish, hrelease]

end Parser

/-- **The grammar is not ambiguous**: the machine that reads it has one answer. -/
theorem IsSentence.unique {lexemes : List Lexeme} {s t : Tree}
    (hs : IsSentence Lexicon.maxDepth lexemes s) (ht : IsSentence Lexicon.maxDepth lexemes t) :
    s = t := by
  have htokens : (lexemes.map fun l => (⟨l, 0⟩ : Token)).map Token.lexeme = lexemes := by
    rw [List.map_map]
    exact List.map_id lexemes
  rw [← htokens, ← Parser.parseTokens_eq_ok_iff 0] at hs ht
  exact Except.ok.inj (hs.symm.trans ht)

/-- A text is an equation when it is not too long, not blank, and its tokens are in the grammar. -/
theorem parseText_eq_ok_iff {text : List Char} {tree : Tree} :
    parseText text = .ok tree ↔ text.length ≤ Lexicon.maxLength ∧ Text.strip text ≠ [] ∧
      ∃ tokens, tokenize text = .ok tokens ∧
        IsSentence Lexicon.maxDepth (tokens.map Token.lexeme) tree := by
  rw [parseText]
  split
  · next hlong => simp [Nat.not_le.2 hlong]
  · next hlong =>
    split
    · next hblank =>
      have hstrip : Text.strip text = [] := Text.strip_eq_nil_iff.2 (List.all_eq_true.1 hblank)
      simp [hstrip]
    · next hblank =>
      have hstrip : Text.strip text ≠ [] := fun h =>
        hblank (List.all_eq_true.2 (Text.strip_eq_nil_iff.1 h))
      rw [bind_eq_ok_iff, and_iff_right (Nat.not_lt.1 hlong), and_iff_right hstrip]
      simp only [Parser.parseTokens_eq_ok_iff]

/-- **Which texts are equations, and what their trees are.**  A text has a tree exactly when it is
of at most 500 characters, not blank and made of tokens, and the grammar derives the tokens with
every call as long as its function demands and no token enclosed by more than 64 constructs.  The
tree of the text is the one that the grammar gives; there is no other. -/
theorem parseText_characterised (text : List Char) :
    (∀ tree, parseText text = .ok tree ↔ text.length ≤ 500 ∧ Text.strip text ≠ [] ∧
      ∃ tokens, tokenize text = .ok tokens ∧
        IsSentence 64 (tokens.map Token.lexeme) tree) ∧
      ∀ lexemes s t, IsSentence 64 lexemes s → IsSentence 64 lexemes t → s = t :=
  ⟨fun _ => parseText_eq_ok_iff, fun _ _ _ => IsSentence.unique⟩

end SpaceCurve
