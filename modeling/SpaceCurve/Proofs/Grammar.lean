import SpaceCurve.Equation.Tree
import SpaceCurve.Equation.Token

/-!
# The grammar of equations

```text
expression := term (("+" | "-") term)*
term       := unary (("*" | "/") unary)*
unary      := "-" unary | power
power      := primary ("^" unary)?
primary    := number | name | function "(" expression ("," expression)* ")" | "(" expression ")"
```

`Derives p d w t` says that the lexemes of `w` are a phrase of the kind `p` and that `t` is the
tree of the phrase.  Nothing here knows of a parser.

## Two decisions

* **Repetition is recursion on the left.**  An expression is a term, or an expression, a sign and a
  term.  This is the same as a term followed by signs and terms whose trees are folded to the left,
  and it has no list of pending operators to speak of.  The arguments of a call are treated in the
  same way: `call f` is a call up to the parenthesis that closes it, so that a further argument
  extends a shorter call.
* **Each lexeme carries the number of constructs around it.**  A construct is the operand of a
  minus sign, the right operand of `^`, the inside of a pair of parentheses, the arguments of a
  call.  How deeply an equation nests is then a property of the derived list, `Bounded`, and not of
  the way in which it is derived.
-/

set_option autoImplicit false

namespace SpaceCurve

/-- A lexeme and the number of nesting constructs that enclose it. -/
structure Enclosed where
  lexeme : Lexeme
  depth : Nat

/-- The kinds of phrases. -/
inductive Phrase where
  | expression | term | unary | power | primary
  /-- A call of the function up to its last argument; the closing parenthesis is still to come. -/
  | call (f : Func)

/-- `Derives p d w t`: enclosed by `d` constructs, the lexemes of `w` are a phrase of kind `p` with
the tree `t`. -/
inductive Derives : Phrase → Nat → List Enclosed → Tree → Prop
  | ofTerm {d : Nat} {w : List Enclosed} {a : Tree} (h : Derives .term d w a) :
      Derives .expression d w a
  | sum {d : Nat} {o : Operator} {l r : List Enclosed} {a b : Tree} (ho : o = .add ∨ o = .sub)
      (hl : Derives .expression d l a) (hr : Derives .term d r b) :
      Derives .expression d (l ++ ⟨.operator o, d⟩ :: r) (.binary o.sign a b)
  | ofUnary {d : Nat} {w : List Enclosed} {a : Tree} (h : Derives .unary d w a) :
      Derives .term d w a
  | product {d : Nat} {o : Operator} {l r : List Enclosed} {a b : Tree} (ho : o = .mul ∨ o = .div)
      (hl : Derives .term d l a) (hr : Derives .unary d r b) :
      Derives .term d (l ++ ⟨.operator o, d⟩ :: r) (.binary o.sign a b)
  | ofPower {d : Nat} {w : List Enclosed} {a : Tree} (h : Derives .power d w a) :
      Derives .unary d w a
  | minus {d : Nat} {w : List Enclosed} {a : Tree} (h : Derives .unary (d + 1) w a) :
      Derives .unary d (⟨.operator .sub, d⟩ :: w) (.unary Lexicon.negation a)
  | ofPrimary {d : Nat} {w : List Enclosed} {a : Tree} (h : Derives .primary d w a) :
      Derives .power d w a
  | raised {d : Nat} {l r : List Enclosed} {a b : Tree} (hl : Derives .primary d l a)
      (hr : Derives .unary (d + 1) r b) :
      Derives .power d (l ++ ⟨.operator .pow, d⟩ :: r) (.binary Operator.pow.sign a b)
  /-- The value is the float that the text is read as (`Numeral.float?_eq_decimal`). -/
  | number (d : Nat) (text : List Char) :
      Derives .primary d [⟨.number text, d⟩] (.number (Numeral.decimal text))
  | parameter (d : Nat) :
      Derives .primary d [⟨.symbol .parameter, d⟩] (.parameter Symbol.parameterName)
  | constant (d : Nat) (c : Constant) :
      Derives .primary d [⟨.symbol (.constant c), d⟩] (.constant c.spelling)
  | group {d : Nat} {w : List Enclosed} {a : Tree} (h : Derives .expression (d + 1) w a) :
      Derives .primary d (⟨.opening, d⟩ :: w ++ [⟨.closing, d⟩]) a
  | firstArgument {d : Nat} {w : List Enclosed} {a : Tree} (f : Func)
      (h : Derives .expression (d + 1) w a) :
      Derives (.call f) d (⟨.symbol (.function f), d⟩ :: ⟨.opening, d⟩ :: w) (.call f.spelling [a])
  | nextArgument {d : Nat} {f : Func} {l r : List Enclosed} {args : List Tree} {a : Tree}
      (hl : Derives (.call f) d l (.call f.spelling args))
      (hr : Derives .expression (d + 1) r a) :
      Derives (.call f) d (l ++ ⟨.comma, d + 1⟩ :: r) (.call f.spelling (args ++ [a]))
  /-- A call is closed after as many arguments as the function takes. -/
  | called {d : Nat} {f : Func} {w : List Enclosed} {args : List Tree}
      (h : Derives (.call f) d w (.call f.spelling args)) (hn : args.length = f.arity) :
      Derives .primary d (w ++ [⟨.closing, d⟩]) (.call f.spelling args)

/-- No lexeme is enclosed by more than `limit` constructs. -/
def Bounded (limit : Nat) (w : List Enclosed) : Prop := ∀ x ∈ w, x.depth ≤ limit

/-- The lexemes are an equation with the given tree, and none of them is enclosed by more than
`limit` constructs. -/
def IsSentence (limit : Nat) (lexemes : List Lexeme) (tree : Tree) : Prop :=
  ∃ w : List Enclosed,
    w.map Enclosed.lexeme = lexemes ∧ Derives .expression 0 w tree ∧ Bounded limit w

/-! ## Bounded lists -/

theorem bounded_nil {limit : Nat} : Bounded limit [] := by
  intro x hx
  simp at hx

theorem bounded_append {limit : Nat} {v w : List Enclosed} :
    Bounded limit (v ++ w) ↔ Bounded limit v ∧ Bounded limit w := by
  simp only [Bounded, List.mem_append]
  exact ⟨fun h => ⟨fun x hx => h x (.inl hx), fun x hx => h x (.inr hx)⟩,
    fun h x hx => hx.elim (h.1 x) (h.2 x)⟩

theorem bounded_cons {limit : Nat} {x : Enclosed} {w : List Enclosed} :
    Bounded limit (x :: w) ↔ x.depth ≤ limit ∧ Bounded limit w := by
  simp [Bounded]

/-! ## What every phrase has -/

/-- A phrase is not empty, and its first lexeme is enclosed by what encloses the phrase. -/
theorem Derives.exists_head {p : Phrase} {d : Nat} {w : List Enclosed} {t : Tree}
    (h : Derives p d w t) : ∃ x rest, w = x :: rest ∧ x.depth = d := by
  induction h with
  | ofTerm _ ih => exact ih
  | ofUnary _ ih => exact ih
  | ofPower _ ih => exact ih
  | ofPrimary _ ih => exact ih
  | sum _ _ _ ih _ =>
    obtain ⟨x, rest, rfl, hx⟩ := ih
    exact ⟨x, _, rfl, hx⟩
  | product _ _ _ ih _ =>
    obtain ⟨x, rest, rfl, hx⟩ := ih
    exact ⟨x, _, rfl, hx⟩
  | raised _ _ ih _ =>
    obtain ⟨x, rest, rfl, hx⟩ := ih
    exact ⟨x, _, rfl, hx⟩
  | nextArgument _ _ ih _ =>
    obtain ⟨x, rest, rfl, hx⟩ := ih
    exact ⟨x, _, rfl, hx⟩
  | called _ _ ih =>
    obtain ⟨x, rest, rfl, hx⟩ := ih
    exact ⟨x, _, rfl, hx⟩
  | minus => exact ⟨_, _, rfl, rfl⟩
  | number => exact ⟨_, _, rfl, rfl⟩
  | parameter => exact ⟨_, _, rfl, rfl⟩
  | constant => exact ⟨_, _, rfl, rfl⟩
  | group => exact ⟨_, _, rfl, rfl⟩
  | firstArgument => exact ⟨_, _, rfl, rfl⟩

/-- A bounded phrase stands at a depth within the bound. -/
theorem Derives.le_of_bounded {p : Phrase} {d limit : Nat} {w : List Enclosed} {t : Tree}
    (h : Derives p d w t) (hw : Bounded limit w) : d ≤ limit := by
  obtain ⟨x, rest, rfl, hx⟩ := h.exists_head
  exact hx ▸ (bounded_cons.1 hw).1

end SpaceCurve
