import SpaceCurve.Proofs.Grids
import SpaceCurve.Proofs.Substitution

/-!
# Evaluation of whole grids

`Equation.evaluateGrid` takes the entries of a grid one at a time.  Array arithmetic does not work
like this: the program runs once, on grids.  The parameter is the grid of all parameters, a number is
a grid without axes, and at each operator and in each call the operands meet in a common shape.  What
does without the parameter stays without axes, up to the end, where the result is put in the shape of
the parameters.  This file shows that both are the same.

## What is here

* `Grid.zipWith?`, `Grid.choose?`, `Grid.broadcastTo?` — two grids combined in their common shape, a
  choice between two grids by a third one, and a grid in a larger shape.
* `Program.grid?` — the value of a program on a grid of parameters, and `Equation.broadcast`, which
  puts it in their shape.
* `Grid.Laid ts fixed f g` — **the invariant**: `g` holds the values of `f` at the entries of `ts`, or
  once the value of `f` if it is the same for all.  It goes through each of the operations on grids.
* `Program.Raises` — the powers for which it matters that the parameter is one of many: those whose
  exponent is not the same for all.  An exponent that is the same for all is looked at before the
  power is taken, and so is the exponent when there is only one parameter; `Equation.PowersAgree`
  says that this makes no difference at the bases and exponents that come up.
* `evaluateGrid_eq` — the result for an equation that parses.
-/

set_option autoImplicit false

namespace SpaceCurve

/-! ## Operations on grids -/

namespace Grid

variable {α β γ : Type}

/-- Two grids combined entry by entry in their common shape. -/
def zipWith? (f : α → β → γ) (g : Grid α) (h : Grid β) : Option (Grid γ) :=
  (commonShape? g.shape h.shape).map fun shape =>
    ⟨shape, List.zipWith f (g.stretch shape) (h.stretch shape)⟩

/-- For each entry of the first grid, the entry of the second one if it is true and of the third one
if it is not. -/
def choose? (c : Grid Bool) (g h : Grid α) : Option (Grid α) :=
  (zipWith? Prod.mk g h).bind fun pairs =>
    zipWith? (fun first p => if first then p.1 else p.2) c pairs

/-- The grid in another shape, where that is its common shape with it. -/
def broadcastTo? (g : Grid α) (shape : List Nat) : Option (Grid α) :=
  if commonShape? g.shape shape = some shape then some ⟨shape, g.stretch shape⟩ else none

/-! ## Values along a grid -/

variable {ts : Grid Float} {c d : Bool}

/-- The grid holds the values of a function at the entries of `ts`, or once the value of a function
that is the same for all. -/
inductive Laid (ts : Grid Float) : Bool → (Float → α) → Grid α → Prop
  | single (x : α) : Laid ts true (fun _ => x) (.single x)
  | along (f : Float → α) : Laid ts false f (ts.map f)

theorem Laid.map {f : Float → α} {g : Grid α} (h : Laid ts c f g) (k : α → β) :
    Laid ts c (fun t => k (f t)) (g.map k) := by
  cases h with
  | single x => exact .single (k x)
  | along f =>
    have hmap : (ts.map f).map k = ts.map fun t => k (f t) := by
      simp [Grid.map, Function.comp_def]
    rw [hmap]
    exact .along _

/-- In the shape of `ts`, the values are there for each of its entries. -/
theorem Laid.stretch (hts : ts.Full) {f : Float → α} {g : Grid α} (h : Laid ts c f g) :
    g.stretch ts.shape = ts.entries.map f := by
  cases h with
  | single x => rw [stretch_single, ← hts, List.map_const']
  | along f => exact (hts.map f).stretch_self

/-- Operands meet in the shape of `ts`, or both are there just once. -/
theorem Laid.zipWith (hts : ts.Full) {f : Float → α} {g : Grid α} {f' : Float → β} {g' : Grid β}
    (h : Laid ts c f g) (h' : Laid ts d f' g') (k : α → β → γ) :
    ∃ r, zipWith? k g g' = some r ∧ Laid ts (c && d) (fun t => k (f t) (f' t)) r := by
  have hmeet : commonShape? g.shape g'.shape = some ts.shape →
      zipWith? k g g' = some (ts.map fun t => k (f t) (f' t)) := by
    intro hshape
    rw [zipWith?, hshape, Option.map_some, h.stretch hts, h'.stretch hts, List.zipWith_map,
      List.zipWith_self]
    rfl
  cases h with
  | single x =>
    cases h' with
    | single y => exact ⟨_, rfl, .single (k x y)⟩
    | along f' => exact ⟨_, hmeet (commonShape?_nil_left ts.shape), .along _⟩
  | along f =>
    cases h' with
    | single y => exact ⟨_, hmeet (commonShape?_nil ts.shape), .along _⟩
    | along f' => exact ⟨_, hmeet (commonShape?_self ts.shape), .along _⟩

theorem Laid.choose (hts : ts.Full) {b : Float → Bool} {first : Grid Bool} {f f' : Float → α}
    {g g' : Grid α} (hb : Laid ts c b first) (h : Laid ts c f g) (h' : Laid ts c f' g') :
    ∃ r, choose? first g g' = some r ∧ Laid ts c (fun t => if b t then f t else f' t) r := by
  obtain ⟨pairs, hpairs, hlaid⟩ := h.zipWith hts h' Prod.mk
  obtain ⟨r, hr, hchosen⟩ := hb.zipWith hts hlaid fun first p => if first then p.1 else p.2
  rw [Bool.and_self, Bool.and_self] at hchosen
  exact ⟨r, by rw [choose?, hpairs, Option.bind_some, hr], hchosen⟩

theorem Laid.broadcastTo (hts : ts.Full) {f : Float → α} {g : Grid α} (h : Laid ts c f g) :
    g.broadcastTo? ts.shape = some (ts.map f) := by
  have hshape : commonShape? g.shape ts.shape = some ts.shape := by
    cases h with
    | single x => exact commonShape?_nil_left ts.shape
    | along f => exact commonShape?_self ts.shape
  rw [broadcastTo?, if_pos hshape, h.stretch hts]
  rfl

/-- What is the same for all has no axes, and nothing else has none unless `ts` has none. -/
theorem Laid.isEmpty_shape {f : Float → α} {g : Grid α} (h : Laid ts c f g) :
    g.shape.isEmpty = (ts.shape.isEmpty || c) := by
  cases h with
  | single x => exact (Bool.or_true _).symm
  | along f => exact (Bool.or_false _).symm

end Grid

/-! ## Programs on grids -/

/-- The operator on grids.  A right operand without axes is the same for all. -/
def Operator.applyGrid? (o : Operator) (x y : Grid Float) : Option (Grid Float) :=
  Grid.zipWith? (o.apply y.shape.isEmpty) x y

/-- Rounding on grids: the ceiling or the floor, by the difference to the floor. -/
def Grid.halfUp? (x : Grid Float) : Option (Grid Float) :=
  (Grid.zipWith? (fun a b => a - b) x (x.map Binary64.floor)).bind fun above =>
    Grid.choose? (above.map fun d => decide (d ≥ 0.5)) (x.map Binary64.ceil) (x.map Binary64.floor)

/-- The function on grids; none when the number of arguments is wrong. -/
def Func.resultGrid? : Func → List (Grid Float) → Option (Grid Float)
  | .sin, [x] => some (x.map Float.sin)
  | .cos, [x] => some (x.map Float.cos)
  | .tan, [x] => some (x.map Float.tan)
  | .asin, [x] => some (x.map Float.asin)
  | .acos, [x] => some (x.map Float.acos)
  | .atan, [x] => some (x.map Float.atan)
  | .sinh, [x] => some (x.map Float.sinh)
  | .cosh, [x] => some (x.map Float.cosh)
  | .tanh, [x] => some (x.map Float.tanh)
  | .sqrt, [x] => some (x.map Float.sqrt)
  | .pow, [x, y] => Grid.zipWith? (power y.shape.isEmpty) x y
  | .abs, [x] => some (x.map Float.abs)
  | .floor, [x] => some (x.map Binary64.floor)
  | .ceil, [x] => some (x.map Binary64.ceil)
  | .round, [x] => x.halfUp?
  | .exp, [x] => some (x.map Float.exp)
  | .log, [x] => some (x.map Float.log)
  | .log10, [x] => some (x.map Float.log10)
  | _, _ => none

namespace Program

mutual

/-- The value of the program on a grid of parameters; none when the program holds a call with a wrong
number of arguments, or when two grids do not meet. -/
def grid? (ts : Grid Float) : Program → Option (Grid Float)
  | number x => some (.single x)
  | parameter => some ts
  | binary op left right => do
    let x ← left.grid? ts
    let y ← right.grid? ts
    op.applyGrid? x y
  | negate arg => do
    let x ← arg.grid? ts
    return x.map fun a => -a
  | call f args => do
    let xs ← gridAll? ts args
    f.resultGrid? xs

/-- The values of several programs. -/
def gridAll? (ts : Grid Float) : List Program → Option (List (Grid Float))
  | [] => some []
  | p :: rest => do
    let x ← p.grid? ts
    let xs ← gridAll? ts rest
    return x :: xs

end

end Program

/-- The values of the equation on a grid of parameters, in its shape. -/
def Equation.broadcast (e : Equation) (ts : Grid Float) : Except EvaluationError (Grid Float) :=
  e.program.bind fun p =>
    match (p.grid? ts).bind fun g => g.broadcastTo? ts.shape with
    | some g => .ok g
    | none => .error .wrongCount

/-! ## One run for all parameters -/

section

variable {ts : Grid Float} {c : Bool}

theorem exists_halfUp (hts : ts.Full) {f : Float → Float} {g : Grid Float}
    (h : Grid.Laid ts c f g) :
    ∃ r, g.halfUp? = some r ∧ Grid.Laid ts c (fun t => Binary64.halfUp (f t)) r := by
  obtain ⟨above, habove, hlaid⟩ := h.zipWith hts (h.map Binary64.floor) fun a b => a - b
  rw [Bool.and_self] at hlaid
  obtain ⟨r, hr, hchosen⟩ := Grid.Laid.choose hts (hlaid.map fun d => decide (d ≥ 0.5))
    (h.map Binary64.ceil) (h.map Binary64.floor)
  simp only [decide_eq_true_eq] at hchosen
  exact ⟨r, by rw [Grid.halfUp?, habove, Option.bind_some, hr], hchosen⟩

/-- A function of one argument goes along the grid. -/
theorem Func.exists_resultGrid (hts : ts.Full) {f : Func} (hf : f.arity = 1) (fixed : Bool)
    {v : Float → Float} {g : Grid Float} (h : Grid.Laid ts c v g) :
    ∃ r w, f.resultGrid? [g] = some r ∧ Grid.Laid ts c w r ∧
      ∀ t, f.result? fixed [v t] = some (w t) := by
  cases f
  case pow => cases hf
  case round =>
    obtain ⟨r, hr, hlaid⟩ := exists_halfUp hts h
    exact ⟨r, _, hr, hlaid, fun _ => rfl⟩
  all_goals exact ⟨_, _, rfl, h.map _, fun _ => rfl⟩

/-- The program has a value on the grid, and this holds its values at the parameters. -/
def Program.RunsOn (ts : Grid Float) (p : Program) : Prop :=
  ∃ f g, p.grid? ts = some g ∧ Grid.Laid ts p.isConstant f g ∧
    ∀ t, p.eval? ts.shape.isEmpty t = some (f t)

theorem Program.runsOn_binary (hts : ts.Full) (o : Operator) {left right : Program}
    (hl : left.RunsOn ts) (hr : right.RunsOn ts) : (Program.binary o left right).RunsOn ts := by
  obtain ⟨f, x, hx, hxlaid, hf⟩ := hl
  obtain ⟨f', y, hy, hylaid, hf'⟩ := hr
  obtain ⟨r, hr, hlaid⟩ := hxlaid.zipWith hts hylaid (o.apply y.shape.isEmpty)
  refine ⟨_, r, ?_, hlaid, fun t => ?_⟩
  · rw [grid?, hx, hy]
    exact hr
  · rw [eval?, hf, hf', hylaid.isEmpty_shape]
    rfl

theorem Program.runsOn_negate {arg : Program} (h : arg.RunsOn ts) :
    (Program.negate arg).RunsOn ts := by
  obtain ⟨f, x, hx, hlaid, hf⟩ := h
  refine ⟨_, _, by rw [grid?, hx]; rfl, hlaid.map fun a => -a, fun t => ?_⟩
  rw [eval?, hf]
  rfl

theorem Program.hasSpareCell_single {f : Func} (hf : f.arity = 1) (arg : Program) :
    hasSpareCell f [arg] = false := by
  simp [hasSpareCell, hf]

theorem Program.runsOn_call (hts : ts.Full) {f : Func} (hf : f.arity = 1) {arg : Program}
    (h : arg.RunsOn ts) : (Program.call f [arg]).RunsOn ts := by
  obtain ⟨v, x, hx, hlaid, hv⟩ := h
  obtain ⟨r, w, hr, hlaid, hw⟩ := Func.exists_resultGrid hts hf
    (ts.shape.isEmpty || isSecondConstant [arg]) hlaid
  refine ⟨w, r, ?_, ?_, fun t => ?_⟩
  · simp only [grid?, gridAll?, hx]
    exact hr
  · rwa [isConstant, areConstant, areConstant, Bool.and_true]
  · simp only [eval?, evalAll?, hv, hasSpareCell_single hf]
    exact hw t

theorem Program.runsOn_power (hts : ts.Full) {base exponent : Program} (hb : base.RunsOn ts)
    (he : exponent.RunsOn ts) : (Program.call .pow [base, exponent]).RunsOn ts := by
  obtain ⟨f, x, hx, hxlaid, hf⟩ := hb
  obtain ⟨f', y, hy, hylaid, hf'⟩ := he
  obtain ⟨r, hr, hlaid⟩ := hxlaid.zipWith hts hylaid (power y.shape.isEmpty)
  refine ⟨fun t => power y.shape.isEmpty (f t) (f' t), r, ?_, ?_, fun t => ?_⟩
  · simp only [grid?, gridAll?, hx, hy]
    exact hr
  · rwa [isConstant, areConstant, areConstant, areConstant, Bool.and_true]
  · simp only [eval?, evalAll?, hf, hf', hylaid.isEmpty_shape]
    rfl

/-- A call of a function with the right number of arguments has one argument, or is a power. -/
theorem Func.exists_args {α : Type} {f : Func} {args : List α} (hn : args.length = f.arity) :
    (f.arity = 1 ∧ ∃ a, args = [a]) ∨ (f = .pow ∧ ∃ a b, args = [a, b]) := by
  cases f
  case pow => exact .inr ⟨rfl, List.length_eq_two.1 hn⟩
  all_goals exact .inl ⟨rfl, List.length_eq_one_iff.1 hn⟩

/-- **A program whose calls have the right number of arguments runs on whole grids.** -/
theorem Program.Sound.runsOn (hts : ts.Full) {p : Program} (h : p.Sound) : p.RunsOn ts := by
  induction h with
  | number x => exact ⟨_, _, rfl, .single x, fun _ => rfl⟩
  | parameter =>
    have hmap : ts.map id = ts := by simp [Grid.map]
    exact ⟨id, ts.map id, congrArg some hmap.symm, .along id, fun _ => rfl⟩
  | binary o _ _ ihl ihr => exact runsOn_binary hts o ihl ihr
  | negate _ ih => exact runsOn_negate ih
  | call f _ hn ih =>
    obtain ⟨hf, p, rfl⟩ | ⟨rfl, p, q, rfl⟩ := Func.exists_args hn
    · exact runsOn_call hts hf (ih p (by simp))
    · exact runsOn_power hts (ih p (by simp)) (ih q (by simp))

end

/-! ## One parameter and one of many -/

/-- At a parameter that is one of many, the program takes a power with this base and this exponent,
and the exponent is not the same for all. -/
inductive Program.Raises (t : Float) : Program → Float → Float → Prop
  | power {l r : Program} {x y : Float} (hr : r.isConstant = false)
      (hx : l.eval? false t = some x) (hy : r.eval? false t = some y) :
      Raises t (.binary .pow l r) x y
  | powerCall {l r : Program} {x y : Float} (hr : r.isConstant = false)
      (hx : l.eval? false t = some x) (hy : r.eval? false t = some y) :
      Raises t (.call .pow [l, r]) x y
  | left {o : Operator} {l r : Program} {x y : Float} (h : Raises t l x y) :
      Raises t (.binary o l r) x y
  | right {o : Operator} {l r : Program} {x y : Float} (h : Raises t r x y) :
      Raises t (.binary o l r) x y
  | negate {p : Program} {x y : Float} (h : Raises t p x y) : Raises t (.negate p) x y
  | argument {f : Func} {args : List Program} {p : Program} {x y : Float} (hp : p ∈ args)
      (h : Raises t p x y) : Raises t (.call f args) x y

/-- The powers with these bases and exponents are the same whether or not the exponent is looked at
first. -/
def Program.PowersAgree (t : Float) (p : Program) : Prop :=
  ∀ x y, p.Raises t x y → power false x y = power true x y

/-- For a grid with axes, all powers that the equation takes at its entries are the same whether or
not the exponent is looked at first. -/
def Equation.PowersAgree (e : Equation) (ts : Grid Float) : Prop :=
  ts.shape ≠ [] → ∀ p, e.program = .ok p → ∀ t ∈ ts.entries, p.PowersAgree t

section

variable {t : Float}

theorem power_of_agree {l r : Program} {x y : Float} (hx : l.eval? false t = some x)
    (hy : r.eval? false t = some y)
    (h : r.isConstant = false → l.eval? false t = some x → r.eval? false t = some y →
      power false x y = power true x y) :
    power r.isConstant x y = power true x y := by
  cases hr : r.isConstant with
  | true => rfl
  | false => exact h hr hx hy

theorem Operator.apply_of_agree {o : Operator} {l r : Program} {x y : Float}
    (hx : l.eval? false t = some x) (hy : r.eval? false t = some y)
    (h : (Program.binary o l r).PowersAgree t) :
    o.apply r.isConstant x y = o.apply true x y := by
  cases o
  case pow => exact power_of_agree hx hy fun hr hx hy => h x y (.power hr hx hy)
  all_goals rfl

/-- Only for a power it matters whether the second argument is the same for all. -/
theorem Func.result?_single {f : Func} (hf : f.arity = 1) (fixed fixed' : Bool) (x : Float) :
    f.result? fixed [x] = f.result? fixed' [x] := by
  cases f
  case pow => cases hf
  all_goals rfl

/-- **Where its powers agree, a program has the same value at one parameter and at one of many.** -/
theorem Program.Sound.eval?_eq {p : Program} (h : p.Sound) (hagree : p.PowersAgree t) :
    p.eval? false t = p.eval? true t := by
  induction h with
  | number x => rfl
  | parameter => rfl
  | binary o hl hr ihl ihr =>
    obtain ⟨x, hx⟩ := hl.total false t
    obtain ⟨y, hy⟩ := hr.total false t
    have hx' := (ihl fun a b hab => hagree a b (.left hab)).symm.trans hx
    have hy' := (ihr fun a b hab => hagree a b (.right hab)).symm.trans hy
    simp only [eval?, hx, hy, hx', hy', Bool.false_or, Bool.true_or]
    exact congrArg some (Operator.apply_of_agree hx hy hagree)
  | negate _ ih =>
    simp only [eval?, ih fun a b hab => hagree a b (.negate hab)]
  | @call f args hargs hn ih =>
    have hvalue : ∀ p ∈ args, p.eval? false t = p.eval? true t :=
      fun p hp => ih p hp fun a b hab => hagree a b (.argument hp hab)
    obtain ⟨hf, p, rfl⟩ | ⟨rfl, p, q, rfl⟩ := Func.exists_args hn
    · obtain ⟨x, hx⟩ := (hargs p (by simp)).total false t
      have hx' := (hvalue p (by simp)).symm.trans hx
      simp only [eval?, evalAll?, hx, hx', hasSpareCell_single hf]
      exact Func.result?_single hf _ _ x
    · obtain ⟨x, hx⟩ := (hargs p (by simp)).total false t
      obtain ⟨y, hy⟩ := (hargs q (by simp)).total false t
      have hx' := (hvalue p (by simp)).symm.trans hx
      have hy' := (hvalue q (by simp)).symm.trans hy
      simp only [eval?, evalAll?, hx, hy, hx', hy', Bool.false_or, Bool.true_or]
      exact congrArg some
        (power_of_agree hx hy fun hr hx hy => hagree x y (.powerCall hr hx hy))

end

/-! ## Equations on grids -/

/-- **Evaluation of a whole grid.**  Take an equation that parses and a grid of parameters of any
shape.  Evaluating one parameter after another and running the program once on the whole grid have
the same result.  It has the shape of the grid, and at each place the value of the equation at the
parameter there, provided that the powers which it takes there are the same for one parameter and for
one of many. -/
theorem evaluateGrid_eq {source : Value} {e : Equation} (h : Equation.parse source = .ok e)
    {ts : Grid Float} (hts : ts.Full) :
    ∃ g, e.evaluateGrid ts = .ok g ∧ e.broadcast ts = .ok g ∧ g.shape = ts.shape ∧ g.Full ∧
      (e.PowersAgree ts →
        List.Forall₂ (fun t y => e.evaluate (.real t) = .ok y) ts.entries g.entries) := by
  obtain ⟨p, hp, hsound⟩ := (proper_of_parse h).exists_sound
  obtain ⟨f, g, hg, hlaid, hf⟩ := hsound.runsOn hts
  have hprogram : e.program = .ok p := by rw [Equation.program, hp]; rfl
  refine ⟨ts.map f, ?_, ?_, rfl, hts.map f, fun hagree => ?_⟩
  · rw [Equation.evaluateGrid, hprogram]
    exact Grid.convert_eq (fun t => by rw [hf]) ts
  · rw [Equation.broadcast, hprogram]
    simp only [Except.bind, hg, Option.bind_some, hlaid.broadcastTo hts]
  · rw [Grid.entries_map, List.forall₂_map_right_iff, List.forall₂_same]
    intro t ht
    refine Equation.evaluate_real hprogram ?_
    rw [← hf t]
    cases hshape : ts.shape with
    | nil => rfl
    | cons n rest => exact (hsound.eval?_eq (hagree (by simp [hshape]) p hprogram t ht)).symm

/-- A power is the same in both ways unless its exponent is one of five numbers. -/
theorem power_eq {x y : Float} (h : [-1.0, 0.0, 0.5, 1.0, 2.0].all fun special => y != special) :
    power false x y = power true x y := by
  simp only [List.all_cons, List.all_nil, Bool.and_true, Bool.and_eq_true, bne,
    Bool.not_eq_true'] at h
  simp only [power, h, Bool.not_true, Bool.not_false, if_true, if_false, Bool.false_eq_true]

/-- A sum of two terms, of which the first one has the parameter as an exponent and the second one
does without it. -/
def raisedPi : Equation :=
  ⟨"pi^t+round(e)", .binary "+" (.binary "^" (.constant "pi") (.parameter "t"))
    (.call "round" [.constant "e"])⟩

theorem parse_raisedPi : Equation.parse (.text "pi^t+round(e)") = .ok raisedPi := by
  have hreading : Reading "pi^t+round(e)".toList raisedPi.root
      [⟨.symbol (.constant .pi), 0⟩, ⟨.operator .pow, 2⟩, ⟨.symbol .parameter, 3⟩,
        ⟨.operator .add, 4⟩, ⟨.symbol (.function .round), 5⟩, ⟨.opening, 10⟩,
        ⟨.symbol (.constant .e), 11⟩, ⟨.closing, 12⟩]
      [⟨.symbol (.constant .pi), 0⟩, ⟨.operator .pow, 0⟩, ⟨.symbol .parameter, 1⟩,
        ⟨.operator .add, 0⟩, ⟨.symbol (.function .round), 0⟩, ⟨.opening, 0⟩,
        ⟨.symbol (.constant .e), 1⟩, ⟨.closing, 0⟩] :=
    { tokens_eq := by decide +kernel
      lexemes_eq := rfl
      derives := .sum (.inl rfl)
        (.ofTerm (.ofUnary (.ofPower
          (.raised (.constant 0 .pi) (.ofPower (.ofPrimary (.parameter 1)))))))
        (.ofUnary (.ofPower (.ofPrimary (.called (.firstArgument .round
          (.ofTerm (.ofUnary (.ofPower (.ofPrimary (.constant 1 .e)))))) rfl))))
      bounded := by simp [Bounded, Lexicon.maxDepth] }
  exact parse_of_reading hreading (by decide)

/-- A column with two rows. -/
def column : Grid Float := ⟨[2, 1], [3.0, 1.5]⟩

/-- Its only power with an exponent that is not the same for all is that of `pi`. -/
theorem powersAgree_raisedPi : raisedPi.PowersAgree column := by
  intro _ p hp t ht x y hraises
  cases hp
  cases hraises with
  | left h =>
    cases h with
    | power hr hx hy =>
      cases hy
      refine power_eq ?_
      rcases List.mem_pair.1 ht with rfl | rfl
      · decide +kernel
      · decide +kernel
    | left h => cases h
    | right h => cases h
  | right h =>
    cases h with
    | argument hp h =>
      cases List.mem_singleton.1 hp
      cases h

theorem evaluateGrid_eq_column :
    ∃ g, Equation.parse (.text "pi^t+round(e)") = .ok raisedPi ∧ column.Full ∧
      raisedPi.PowersAgree column ∧ raisedPi.evaluateGrid column = .ok g ∧
      raisedPi.broadcast column = .ok g ∧ g.shape = [2, 1] ∧
      List.Forall₂ (fun t y => raisedPi.evaluate (.real t) = .ok y) [3.0, 1.5] g.entries := by
  have hfull : column.Full := rfl
  obtain ⟨g, hg, hbroadcast, hshape, -, hentries⟩ := evaluateGrid_eq parse_raisedPi hfull
  exact ⟨g, parse_raisedPi, hfull, powersAgree_raisedPi, hg, hbroadcast, hshape,
    hentries powersAgree_raisedPi⟩

end SpaceCurve
