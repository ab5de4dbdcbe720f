import SpaceCurve.Equation
import SpaceCurve.Proofs.Balance

/-!
# What parses has a value

The evaluation of a tree can fail in two ways: a name in the tree means nothing, or a call has a
wrong number of arguments.  `Tree.Proper` excludes both, everywhere in the tree, and the trees of
the grammar are proper.  In the program of a proper tree all calls have the right number of arguments
(`Program.Sound`), which is all that the rest of the theory needs to know about such a program.  So an
equation that parses has a value at every real parameter, `exists_evaluate_of_parse`, and at all
entries of a grid, `exists_evaluateGrid_of_parse`.

The value may be infinite or `nan`; these are values like any other here.
-/

set_option autoImplicit false

namespace SpaceCurve

/-! ## Proper trees -/

/-- The tree names nothing but what is in the lexicon, and every call has as many arguments as its
function takes. -/
inductive Tree.Proper : Tree → Prop
  | number (x : Float) : Proper (.number x)
  | parameter : Proper (.parameter Symbol.parameterName)
  | constant (c : Constant) : Proper (.constant c.spelling)
  | binary (o : Operator) {left right : Tree} (hl : Proper left) (hr : Proper right) :
      Proper (.binary o.sign left right)
  | unary {arg : Tree} (h : Proper arg) : Proper (.unary Lexicon.negation arg)
  | call (f : Func) {args : List Tree} (hargs : ∀ a ∈ args, Proper a)
      (hn : args.length = f.arity) : Proper (.call f.spelling args)

/-- What a phrase says about its tree.  The call that is still open may have too few arguments. -/
def Phrase.Claims (t : Tree) : Phrase → Prop
  | .call f => ∃ args, t = .call f.spelling args ∧ ∀ a ∈ args, a.Proper
  | _ => t.Proper

/-- **The trees of the grammar are proper.** -/
theorem proper_of_derives {p : Phrase} {d : Nat} {w : List Enclosed} {t : Tree}
    (h : Derives p d w t) : p.Claims t := by
  induction h with
  | ofTerm _ ih => exact ih
  | ofUnary _ ih => exact ih
  | ofPower _ ih => exact ih
  | ofPrimary _ ih => exact ih
  | sum _ _ _ ihl ihr => exact .binary _ ihl ihr
  | product _ _ _ ihl ihr => exact .binary _ ihl ihr
  | raised _ _ ihl ihr => exact .binary _ ihl ihr
  | minus _ ih => exact .unary ih
  | number d text => exact .number _
  | parameter => exact .parameter
  | constant _ c => exact .constant c
  | group _ ih => exact ih
  | firstArgument f _ ih =>
    refine ⟨_, rfl, fun a ha => ?_⟩
    rw [List.mem_singleton.1 ha]
    exact ih
  | nextArgument _ _ ihl ihr =>
    obtain ⟨args, hargs, hproper⟩ := ihl
    obtain rfl := (Tree.call.inj hargs).2
    refine ⟨_, rfl, fun a ha => ?_⟩
    rcases List.mem_append.1 ha with ha | ha
    · exact hproper a ha
    · rw [List.mem_singleton.1 ha]
      exact ihr
  | called _ hn ih =>
    obtain ⟨args, hargs, hproper⟩ := ih
    obtain rfl := (Tree.call.inj hargs).2
    exact .call _ hproper hn

theorem proper_of_parse {source : Value} {e : Equation} (h : Equation.parse source = .ok e) :
    e.root.Proper := by
  obtain ⟨s, tokens, -, -, -, w, -, hderives, -⟩ := exists_sentence_of_parse h
  exact proper_of_derives hderives

/-! ## Programs with a value -/

/-- The program has a value at every parameter, single or one of many. -/
def Program.Total (p : Program) : Prop := ∀ single t, ∃ y, p.eval? single t = some y

theorem Program.total_binary (o : Operator) {left right : Program} (hl : left.Total)
    (hr : right.Total) : (Program.binary o left right).Total := by
  intro single t
  obtain ⟨x, hx⟩ := hl single t
  obtain ⟨y, hy⟩ := hr single t
  exact ⟨_, by simp only [eval?, hx, hy]; rfl⟩

theorem Program.total_negate {arg : Program} (h : arg.Total) : (Program.negate arg).Total := by
  intro single t
  obtain ⟨x, hx⟩ := h single t
  exact ⟨_, by simp only [eval?, hx]; rfl⟩

theorem Program.exists_evalAll {args : List Program} (h : ∀ p ∈ args, p.Total) (single : Bool)
    (t : Float) : ∃ xs, evalAll? single t args = some xs ∧ xs.length = args.length := by
  induction args with
  | nil => exact ⟨[], rfl, rfl⟩
  | cons p rest ih =>
    obtain ⟨x, hx⟩ := h p (by simp) single t
    obtain ⟨xs, hxs, hlen⟩ := ih fun q hq => h q (List.mem_cons_of_mem _ hq)
    exact ⟨x :: xs, by simp only [evalAll?, hx, hxs]; rfl, by simp [hlen]⟩

/-- A call with the right number of arguments has no argument to spare. -/
theorem Program.total_call {f : Func} {args : List Program} (h : ∀ p ∈ args, p.Total)
    (hn : args.length = f.arity) : (Program.call f args).Total := by
  intro single t
  obtain ⟨xs, hxs, hlen⟩ := exists_evalAll h single t
  have hspare : hasSpareCell f args = false := by simp [hasSpareCell, hn]
  obtain ⟨y, hy⟩ := Option.isSome_iff_exists.1
    ((Func.isSome_result?_iff (single || isSecondConstant args) f xs).2 (hlen.trans hn))
  refine ⟨y, ?_⟩
  simp only [eval?, hxs, hspare]
  exact hy

/-- Every call of the program has as many arguments as its function takes. -/
inductive Program.Sound : Program → Prop
  | number (x : Float) : Sound (.number x)
  | parameter : Sound .parameter
  | binary (o : Operator) {left right : Program} (hl : Sound left) (hr : Sound right) :
      Sound (.binary o left right)
  | negate {arg : Program} (h : Sound arg) : Sound (.negate arg)
  | call (f : Func) {args : List Program} (hargs : ∀ p ∈ args, Sound p)
      (hn : args.length = f.arity) : Sound (.call f args)

theorem Program.Sound.total {p : Program} (h : p.Sound) : p.Total := by
  induction h with
  | number x => exact fun _ _ => ⟨x, rfl⟩
  | parameter => exact fun _ t => ⟨t, rfl⟩
  | binary o _ _ ihl ihr => exact total_binary o ihl ihr
  | negate _ ih => exact total_negate ih
  | call f _ hn ih => exact total_call ih hn

theorem exists_resolveAll {args : List Tree}
    (h : ∀ a ∈ args, ∃ p, a.resolve = .ok p ∧ p.Sound) :
    ∃ ps, Tree.resolveAll args = .ok ps ∧ ps.length = args.length ∧ ∀ p ∈ ps, p.Sound := by
  induction args with
  | nil => exact ⟨[], rfl, rfl, by simp⟩
  | cons a rest ih =>
    obtain ⟨p, hp, hsound⟩ := h a (by simp)
    obtain ⟨ps, hps, hlen, hall⟩ := ih fun b hb => h b (List.mem_cons_of_mem _ hb)
    refine ⟨p :: ps, ?_, by simp [hlen], ?_⟩
    · simp only [Tree.resolveAll, hp, hps]
      rfl
    · intro q hq
      rcases List.mem_cons.1 hq with rfl | hq
      · exact hsound
      · exact hall q hq

/-- **A proper tree is a program in which all calls have the right number of arguments.** -/
theorem Tree.Proper.exists_sound {t : Tree} (h : t.Proper) :
    ∃ p, t.resolve = .ok p ∧ p.Sound := by
  induction h with
  | number x => exact ⟨.number x, rfl, .number x⟩
  | parameter => exact ⟨.parameter, rfl, .parameter⟩
  | constant c =>
    refine ⟨.number c.value, ?_, .number c.value⟩
    simp only [Tree.resolve, Constant.ofSpelling?_spelling]
  | binary o _ _ ihl ihr =>
    obtain ⟨l, hl, hlsound⟩ := ihl
    obtain ⟨r, hr, hrsound⟩ := ihr
    refine ⟨.binary o l r, ?_, .binary o hlsound hrsound⟩
    simp only [Tree.resolve, Operator.ofSign?_sign, hl, hr]
    rfl
  | unary _ ih =>
    obtain ⟨p, hp, hsound⟩ := ih
    refine ⟨.negate p, ?_, .negate hsound⟩
    simp only [Tree.resolve, beq_self_eq_true, if_true, hp]
    rfl
  | call f _ hn ih =>
    obtain ⟨ps, hps, hlen, hall⟩ := exists_resolveAll ih
    refine ⟨.call f ps, ?_, .call f hall (hlen.trans hn)⟩
    simp only [Tree.resolve, Func.ofSpelling?_spelling, hps]
    rfl

/-- **A proper tree is a program, and the program has a value at every parameter.** -/
theorem Tree.Proper.exists_program {t : Tree} (h : t.Proper) :
    ∃ p, t.resolve = .ok p ∧ p.Total := by
  obtain ⟨p, hp, hsound⟩ := h.exists_sound
  exact ⟨p, hp, hsound.total⟩

/-! ## Equations that parse -/

theorem exists_program_of_parse {source : Value} {e : Equation}
    (h : Equation.parse source = .ok e) : ∃ p, e.program = .ok p ∧ p.Total := by
  obtain ⟨p, hp, htotal⟩ := (proper_of_parse h).exists_program
  exact ⟨p, by rw [Equation.program, hp]; rfl, htotal⟩

theorem Equation.evaluate_real {e : Equation} {p : Program} {t y : Float}
    (hp : e.program = .ok p) (hy : p.eval? true t = some y) : e.evaluate (.real t) = .ok y := by
  rw [Equation.evaluate, hp]
  simp only [Except.bind, Program.evaluate, parameterOf, hy]

/-- **An equation that parses has a value at every real parameter.** -/
theorem exists_evaluate_of_parse {source : Value} {e : Equation}
    (h : Equation.parse source = .ok e) (t : Float) : ∃ y, e.evaluate (.real t) = .ok y := by
  obtain ⟨p, hp, htotal⟩ := exists_program_of_parse h
  obtain ⟨y, hy⟩ := htotal true t
  exact ⟨y, Equation.evaluate_real hp hy⟩

/-- A function that refuses no entry goes along the grid. -/
theorem Grid.convert_eq {α β ε : Type} {f : α → Except ε β} {k : α → β}
    (h : ∀ x, f x = .ok (k x)) (g : Grid α) : g.convert f = .ok (g.map k) := by
  have hmap : ∀ xs : List α, xs.mapM f = .ok (xs.map k) := by
    intro xs
    induction xs with
    | nil => rfl
    | cons x xs ih =>
      rw [List.mapM_cons, h, ih]
      rfl
  rw [convert, hmap]
  rfl

/-- A function that refuses no entry converts a grid of any shape. -/
theorem Grid.exists_convert {α β ε : Type} {f : α → Except ε β} (h : ∀ x, ∃ y, f x = .ok y)
    (g : Grid α) :
    ∃ g', g.convert f = .ok g' ∧ g'.shape = g.shape ∧ g'.entries.length = g.entries.length := by
  choose k hk using h
  exact ⟨g.map k, convert_eq hk g, rfl, List.length_map _⟩

/-- **An equation that parses has values at all entries of a grid.** -/
theorem exists_evaluateGrid_of_parse {source : Value} {e : Equation}
    (h : Equation.parse source = .ok e) (ts : Grid Float) :
    ∃ g, e.evaluateGrid ts = .ok g ∧ g.shape = ts.shape ∧
      g.entries.length = ts.entries.length := by
  obtain ⟨p, hp, htotal⟩ := exists_program_of_parse h
  rw [Equation.evaluateGrid, hp]
  refine Grid.exists_convert (fun t => ?_) ts
  obtain ⟨y, hy⟩ := htotal ts.shape.isEmpty t
  exact ⟨y, by rw [hy]⟩

end SpaceCurve
