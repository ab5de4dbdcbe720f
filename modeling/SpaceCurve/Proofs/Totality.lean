import SpaceCurve.Proofs.Conversions
import SpaceCurve.Proofs.Evaluation
import SpaceCurve.Proofs.Walking

/-!
# The lexicon is closed, so evaluation is total

A tree names what it uses by text, its numbers are any floats, and nothing in it says how many
arguments a call should have.  `Tree.InLexicon` is what a single node has to keep to, and
`everywhere_of_parse` says that in a parsed tree all of them do: this is an invariant of the
grammar, where a call is still short of arguments while it is open (`Phrase.Keeps`).

With the names and the numbers of arguments settled there is nothing left in the tree that can go
wrong, whatever the values on the way.  What can fail is the parameter, and `evaluate_total` says
when: it is not a number, or it is an integer that no float is near enough to.
-/

set_option autoImplicit false

namespace SpaceCurve

/-- Whether a node keeps to the lexicon: what it names is there, a number is not negative and not
`nan`, and a call has as many arguments as its function takes. -/
def Tree.InLexicon : Tree → Prop
  | .number x => x.isNaN = false ∧ 0.0 ≤ x
  | .parameter name => name = Symbol.parameterName
  | .constant name => ∃ c : Constant, name = c.spelling
  | .binary op _ _ => ∃ o : Operator, op = o.sign
  | .unary op _ => op = Lexicon.negation
  | .call name args => ∃ f : Func, name = f.spelling ∧ args.length = f.arity
  | .blank => False

/-- What a phrase keeps to.  The call that is still open may have too few arguments. -/
def Phrase.Keeps (t : Tree) : Phrase → Prop
  | .call f => ∃ args, t = .call f.spelling args ∧ ∀ a ∈ args, a.Everywhere Tree.InLexicon
  | _ => t.Everywhere Tree.InLexicon

theorem Tree.everywhere_leaf {t : Tree} (h : t.InLexicon) (hleaf : t.children = []) :
    t.Everywhere InLexicon :=
  everywhere_iff.2 ⟨h, by simp [hleaf]⟩

theorem Tree.everywhere_binary (o : Operator) {a b : Tree} (ha : a.Everywhere InLexicon)
    (hb : b.Everywhere InLexicon) : (Tree.binary o.sign a b).Everywhere InLexicon :=
  everywhere_iff.2 ⟨⟨o, rfl⟩, by simp [children, ha, hb]⟩

/-- **Every node of a tree of the grammar keeps to the lexicon.** -/
theorem keeps_of_derives {p : Phrase} {d : Nat} {w : List Enclosed} {t : Tree}
    (h : Derives p d w t) : p.Keeps t := by
  induction h with
  | ofTerm _ ih => exact ih
  | ofUnary _ ih => exact ih
  | ofPower _ ih => exact ih
  | ofPrimary _ ih => exact ih
  | sum _ _ _ ihl ihr => exact Tree.everywhere_binary _ ihl ihr
  | product _ _ _ ihl ihr => exact Tree.everywhere_binary _ ihl ihr
  | raised _ _ ihl ihr => exact Tree.everywhere_binary _ ihl ihr
  | minus _ ih => exact Tree.everywhere_iff.2 ⟨rfl, List.forall_mem_singleton.2 ih⟩
  | number d text => exact Tree.everywhere_leaf (Numeral.decimal_unsigned text) rfl
  | parameter => exact Tree.everywhere_leaf rfl rfl
  | constant _ c => exact Tree.everywhere_leaf ⟨c, rfl⟩ rfl
  | group _ ih => exact ih
  | firstArgument f _ ih => exact ⟨_, rfl, List.forall_mem_singleton.2 ih⟩
  | nextArgument _ _ ihl ihr =>
    obtain ⟨args, hargs, hall⟩ := ihl
    obtain rfl := (Tree.call.inj hargs).2
    refine ⟨_, rfl, fun a ha => ?_⟩
    rcases List.mem_append.1 ha with ha | ha
    · exact hall a ha
    · rw [List.mem_singleton.1 ha]
      exact ihr
  | called _ hn ih =>
    obtain ⟨args, hargs, hall⟩ := ih
    obtain rfl := (Tree.call.inj hargs).2
    exact Tree.everywhere_iff.2 ⟨⟨_, rfl, hn⟩, hall⟩

theorem everywhere_of_parse {source : Value} {e : Equation}
    (h : Equation.parse source = .ok e) : e.root.Everywhere Tree.InLexicon := by
  obtain ⟨s, tokens, -, -, -, w, -, hderives, -⟩ := exists_sentence_of_parse h
  exact keeps_of_derives hderives

/-! ## The parameter -/

/-- An integer stands for a parameter unless it is too large. -/
theorem parameterOf_int (i : Int) :
    (i.natAbs < 2 ^ 1024 - 2 ^ 970 ∧ ∃ x, parameterOf (.int i) = .ok x) ∨
      (2 ^ 1024 - 2 ^ 970 ≤ i.natAbs ∧ parameterOf (.int i) = .error .outOfRange) := by
  have hrange := Binary64.ofInt?_eq_none_iff i
  rw [parameterOf]
  cases hx : Binary64.ofInt? i with
  | some x => exact .inl ⟨Nat.lt_of_not_le fun h => by simp [hrange.2 h] at hx, x, rfl⟩
  | none => exact .inr ⟨hrange.1 hx, rfl⟩

theorem exists_parameterOf_iff (t : Value) :
    (∃ x, parameterOf t = .ok x) ↔
      (∃ x, t = .real x) ∨ ∃ i, t = .int i ∧ i.natAbs < 2 ^ 1024 - 2 ^ 970 := by
  cases t with
  | int i =>
    obtain ⟨hlt, x, hx⟩ | ⟨hle, hx⟩ := parameterOf_int i
    · exact iff_of_true ⟨x, hx⟩ (.inr ⟨i, rfl, hlt⟩)
    · refine iff_of_false (by simp [hx]) ?_
      rintro (⟨x, h⟩ | ⟨j, h, hlt⟩)
      · cases h
      · cases h
        exact Nat.not_lt_of_le hle hlt
  | real x => exact iff_of_true ⟨x, rfl⟩ (.inl ⟨x, rfl⟩)
  | _ => simp [parameterOf, -Nat.reducePow]

theorem parameterOf_eq_outOfRange_iff (t : Value) :
    parameterOf t = .error .outOfRange ↔
      ∃ i, t = .int i ∧ 2 ^ 1024 - 2 ^ 970 ≤ i.natAbs := by
  cases t with
  | int i =>
    obtain ⟨hlt, x, hx⟩ | ⟨hle, hx⟩ := parameterOf_int i
    · refine iff_of_false (by simp [hx]) ?_
      rintro ⟨j, h, hle⟩
      cases h
      exact Nat.not_lt_of_le hle hlt
    · exact iff_of_true hx ⟨i, rfl, hle⟩
  | _ => simp [parameterOf, -Nat.reducePow]

theorem of_parameterOf_eq_error {t : Value} {cause : EvaluationError}
    (h : parameterOf t = .error cause) : cause = .outOfRange ∨ cause = .notReal t.kind := by
  cases t with
  | int i =>
    obtain ⟨-, x, hx⟩ | ⟨-, hx⟩ := parameterOf_int i
    · rw [hx] at h
      cases h
    · exact .inl (Except.error.inj (h.symm.trans hx))
  | real x => cases h
  | _ => exact .inr (Except.error.inj h).symm

/-- **What parses has a value where its parameter has one, and fails as its parameter does.** -/
theorem evaluate_of_parse {source : Value} {e : Equation} (h : Equation.parse source = .ok e)
    (t : Value) :
    ((∃ y, e.evaluate t = .ok y) ↔ ∃ x, parameterOf t = .ok x) ∧
      ∀ cause, e.evaluate t = .error cause ↔ parameterOf t = .error cause := by
  obtain ⟨p, hp, htotal⟩ := exists_program_of_parse h
  have heval : e.evaluate t = p.evaluate t := by
    rw [Equation.evaluate, hp]
    rfl
  rw [heval, Program.evaluate]
  cases parameterOf t with
  | ok x =>
    obtain ⟨y, hy⟩ := htotal true x
    simp [Except.bind, hy]
  | error cause => simp [Except.bind]

/-- **The closed lexicon makes evaluation total.**  In an equation that parses, every node keeps to
the lexicon.  It has a value at every float and at every integer that some float is near enough to;
at a larger integer the parameter is out of range, at any other value it is not a number, and
nothing else can happen. -/
theorem evaluate_total {source : Value} {e : Equation} (h : Equation.parse source = .ok e) :
    (∀ node ∈ e.root.walk, node.InLexicon) ∧
    ∀ t : Value,
      ((∃ y, e.evaluate t = .ok y) ↔
        (∃ x, t = .real x) ∨ ∃ i, t = .int i ∧ i.natAbs < 2 ^ 1024 - 2 ^ 970) ∧
      (e.evaluate t = .error .outOfRange ↔
        ∃ i, t = .int i ∧ 2 ^ 1024 - 2 ^ 970 ≤ i.natAbs) ∧
      ∀ cause, e.evaluate t = .error cause → cause = .outOfRange ∨ cause = .notReal t.kind := by
  refine ⟨everywhere_of_parse h, fun t => ?_⟩
  obtain ⟨hvalue, herror⟩ := evaluate_of_parse h t
  exact ⟨hvalue.trans (exists_parameterOf_iff t),
    (herror _).trans (parameterOf_eq_outOfRange_iff t),
    fun cause hcause => of_parameterOf_eq_error ((herror cause).1 hcause)⟩

/-- A logarithm of a reciprocal, at the pole of the one and beyond the domain of the other, at an
integer without a float, and at a truth value. -/
theorem evaluate_total_pole :
    ∃ e, Equation.parse (.text "log(1/t)") = .ok e ∧
      (∀ node ∈ e.root.walk, node.InLexicon) ∧
      (∃ y, e.evaluate (.int 0) = .ok y) ∧
      (∃ y, e.evaluate (.real (-1.0)) = .ok y) ∧
      e.evaluate (.int (-2 ^ 1024)) = .error .outOfRange ∧
      ∀ y, e.evaluate (.bool true) ≠ .ok y := by
  have hparses : (Equation.parse (.text "log(1/t)")).toBool = true := by decide +kernel
  obtain ⟨e, he⟩ : ∃ e, Equation.parse (.text "log(1/t)") = .ok e := by
    cases hparse : Equation.parse (.text "log(1/t)") with
    | ok e => exact ⟨e, rfl⟩
    | error cause => simp [hparse, Except.toBool] at hparses
  obtain ⟨hnodes, houtcome⟩ := evaluate_total he
  refine ⟨e, he, hnodes, (houtcome _).1.2 (.inr ⟨0, rfl, ?_⟩), (houtcome _).1.2 (.inl ⟨_, rfl⟩),
    (houtcome _).2.1.2 ⟨_, rfl, ?_⟩, fun y hy => ?_⟩
  · decide +kernel
  · decide +kernel
  · obtain ⟨x, hx⟩ | ⟨i, hi, -⟩ := (houtcome _).1.1 ⟨y, hy⟩
    · cases hx
    · cases hi

end SpaceCurve
