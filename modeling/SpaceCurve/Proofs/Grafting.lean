import SpaceCurve.Proofs.Evaluation

/-!
# Equations in place of the parameter

A tree may be put in place of the parameter in another one, at all of its leaves or at some of them.
This file says what that means for the three things a tree has to do with.

* `Tree.graft t chosen r k` — the tree itself.  The parameters of a tree are counted from left to
  right, from `k` on, and the leaves whose number is chosen give way to `r`.
* `plant chosen v k w` — the lexemes of the tree.  The chosen parameters give way to the lexemes of
  `r` in parentheses, which stand one level deeper than the parameter did.
  `derives_plant` says that the grammar derives these with the tree that has `r` in it, whatever
  stands around the parameter: a parenthesised expression is primary, and so is the parameter.
* `Tree.Proper.eval_graft` — the value.  With `r` in place of every parameter, the value is the one
  that the tree has at the value of `r`.

Numbers identify leaves and lexemes alike, since both come in the same order
(`Derives.parameters_eq`).
-/

set_option autoImplicit false

namespace SpaceCurve

/-! ## Trees -/

namespace Tree

mutual

/-- The number of leaves that are the parameter. -/
def parameters : Tree → Nat
  | parameter _ => 1
  | binary _ left right => left.parameters + right.parameters
  | unary _ arg => arg.parameters
  | call _ args => parametersAll args
  | _ => 0

/-- The number of leaves of several trees that are the parameter. -/
def parametersAll : List Tree → Nat
  | [] => 0
  | t :: rest => t.parameters + parametersAll rest

end

mutual

/-- The tree with `r` in place of the chosen parameters, which are counted from `k` on. -/
def graft : Tree → (Nat → Bool) → Tree → Nat → Tree
  | parameter name, chosen, r, k => if chosen k then r else .parameter name
  | binary op left right, chosen, r, k =>
    .binary op (left.graft chosen r k) (right.graft chosen r (k + left.parameters))
  | unary op arg, chosen, r, k => .unary op (arg.graft chosen r k)
  | call name args, chosen, r, k => .call name (graftAll args chosen r k)
  | t, _, _, _ => t

/-- Several trees with `r` in place of the chosen parameters. -/
def graftAll : List Tree → (Nat → Bool) → Tree → Nat → List Tree
  | [], _, _, _ => []
  | t :: rest, chosen, r, k => t.graft chosen r k :: graftAll rest chosen r (k + t.parameters)

end

theorem parametersAll_append (xs ys : List Tree) :
    parametersAll (xs ++ ys) = parametersAll xs + parametersAll ys := by
  induction xs with
  | nil => simp [parametersAll]
  | cons x xs ih => rw [List.cons_append, parametersAll, ih, parametersAll, Nat.add_assoc]

variable {chosen : Nat → Bool} {r : Tree}

theorem graftAll_append (k : Nat) (xs ys : List Tree) :
    graftAll (xs ++ ys) chosen r k =
      graftAll xs chosen r k ++ graftAll ys chosen r (k + parametersAll xs) := by
  induction xs generalizing k with
  | nil => rfl
  | cons x xs ih =>
    rw [List.cons_append, graftAll, ih, graftAll, parametersAll, List.cons_append, Nat.add_assoc]

theorem length_graftAll (k : Nat) (xs : List Tree) :
    (graftAll xs chosen r k).length = xs.length := by
  induction xs generalizing k with
  | nil => rfl
  | cons x xs ih => rw [graftAll, List.length_cons, ih, List.length_cons]

end Tree

/-! ## Phrases -/

namespace Enclosed

/-- Whether the lexeme is the parameter. -/
def isParameter (x : Enclosed) : Bool := x.lexeme == .symbol .parameter

/-- The lexeme with so many more constructs around it. -/
def raise (e : Nat) (x : Enclosed) : Enclosed := ⟨x.lexeme, x.depth + e⟩

end Enclosed

/-- A phrase may stand at any depth. -/
theorem Derives.raise (e : Nat) {p : Phrase} {d : Nat} {w : List Enclosed} {t : Tree}
    (h : Derives p d w t) : Derives p (d + e) (w.map (Enclosed.raise e)) t := by
  induction h with
  | ofTerm _ ih => exact .ofTerm ih
  | ofUnary _ ih => exact .ofUnary ih
  | ofPower _ ih => exact .ofPower ih
  | ofPrimary _ ih => exact .ofPrimary ih
  | sum ho _ _ ihl ihr =>
    rw [List.map_append, List.map_cons]
    exact .sum ho ihl ihr
  | product ho _ _ ihl ihr =>
    rw [List.map_append, List.map_cons]
    exact .product ho ihl ihr
  | minus _ ih =>
    rw [Nat.add_right_comm] at ih
    exact .minus ih
  | raised _ _ ihl ihr =>
    rw [Nat.add_right_comm] at ihr
    rw [List.map_append, List.map_cons]
    exact .raised ihl ihr
  | number d text => exact .number _ text
  | parameter => exact .parameter _
  | constant _ c => exact .constant _ c
  | group _ ih =>
    rw [Nat.add_right_comm] at ih
    rw [List.map_append, List.map_cons]
    exact .group ih
  | firstArgument f _ ih =>
    rw [Nat.add_right_comm] at ih
    exact .firstArgument f ih
  | nextArgument _ _ ihl ihr =>
    rw [Nat.add_right_comm] at ihr
    rw [List.map_append, List.map_cons, Enclosed.raise, Nat.add_right_comm]
    exact .nextArgument ihl ihr
  | called _ hn ih =>
    rw [List.map_append]
    exact .called ih hn

/-- The lexemes in parentheses, at a depth. -/
def grouped (v : List Enclosed) (d : Nat) : List Enclosed :=
  ⟨.opening, d⟩ :: v.map (Enclosed.raise (d + 1)) ++ [⟨.closing, d⟩]

/-- The lexemes with parenthesised ones in place of the chosen parameters, which are counted from
`k` on. -/
def plant (chosen : Nat → Bool) (v : List Enclosed) (k : Nat) : List Enclosed → List Enclosed
  | [] => []
  | x :: rest =>
    if x.isParameter then
      (if chosen k then grouped v x.depth else [x]) ++ plant chosen v (k + 1) rest
    else x :: plant chosen v k rest

variable {chosen : Nat → Bool} {v : List Enclosed} {r : Tree}

theorem plant_cons {x : Enclosed} (hx : x.isParameter = false) (k : Nat) (rest : List Enclosed) :
    plant chosen v k (x :: rest) = x :: plant chosen v k rest := by
  rw [plant, if_neg (Bool.eq_false_iff.1 hx)]

theorem plant_append (k : Nat) (l w : List Enclosed) :
    plant chosen v k (l ++ w) =
      plant chosen v k l ++ plant chosen v (k + l.countP Enclosed.isParameter) w := by
  induction l generalizing k with
  | nil => rfl
  | cons x l ih =>
    rw [List.cons_append, plant, plant]
    split
    · next hx =>
      rw [ih, List.countP_cons_of_pos hx, List.append_assoc, Nat.add_assoc, Nat.add_comm 1]
    · next hx => rw [ih, List.countP_cons_of_neg hx, List.cons_append]

/-- **The parameters of a phrase are those of its tree.** -/
theorem Derives.parameters_eq {p : Phrase} {d : Nat} {w : List Enclosed} {t : Tree}
    (h : Derives p d w t) : t.parameters = w.countP Enclosed.isParameter := by
  induction h with
  | ofTerm _ ih => exact ih
  | ofUnary _ ih => exact ih
  | ofPower _ ih => exact ih
  | ofPrimary _ ih => exact ih
  | sum _ _ _ ihl ihr =>
    rw [Tree.parameters, ihl, ihr, List.countP_append, List.countP_cons_of_neg Bool.false_ne_true]
  | product _ _ _ ihl ihr =>
    rw [Tree.parameters, ihl, ihr, List.countP_append, List.countP_cons_of_neg Bool.false_ne_true]
  | raised _ _ ihl ihr =>
    rw [Tree.parameters, ihl, ihr, List.countP_append, List.countP_cons_of_neg Bool.false_ne_true]
  | minus _ ih => rw [Tree.parameters, ih, List.countP_cons_of_neg Bool.false_ne_true]
  | number => rfl
  | parameter => rfl
  | constant => rfl
  | group _ ih =>
    rw [ih, List.countP_append, List.countP_cons_of_neg Bool.false_ne_true]
    rfl
  | firstArgument f _ ih =>
    rw [List.countP_cons_of_neg Bool.false_ne_true, List.countP_cons_of_neg Bool.false_ne_true, ← ih]
    rfl
  | nextArgument _ _ ihl ihr =>
    rw [Tree.parameters] at ihl
    rw [Tree.parameters, Tree.parametersAll_append, ihl, List.countP_append,
      List.countP_cons_of_neg Bool.false_ne_true, ← ihr]
    rfl
  | called _ _ ih =>
    rw [ih, List.countP_append]
    rfl

/-- **A phrase stays one with an expression in parentheses in place of some parameters**, and its
tree is the tree with that of the expression in their place. -/
theorem derives_plant (hv : Derives .expression 0 v r) {p : Phrase} {d : Nat} {w : List Enclosed}
    {t : Tree} (h : Derives p d w t) (k : Nat) :
    Derives p d (plant chosen v k w) (t.graft chosen r k) := by
  induction h generalizing k with
  | ofTerm _ ih => exact .ofTerm (ih k)
  | ofUnary _ ih => exact .ofUnary (ih k)
  | ofPower _ ih => exact .ofPower (ih k)
  | ofPrimary _ ih => exact .ofPrimary (ih k)
  | sum ho hl _ ihl ihr =>
    rw [plant_append, plant_cons rfl, Tree.graft, ← hl.parameters_eq]
    exact .sum ho (ihl k) (ihr _)
  | product ho hl _ ihl ihr =>
    rw [plant_append, plant_cons rfl, Tree.graft, ← hl.parameters_eq]
    exact .product ho (ihl k) (ihr _)
  | raised hl _ ihl ihr =>
    rw [plant_append, plant_cons rfl, Tree.graft, ← hl.parameters_eq]
    exact .raised (ihl k) (ihr _)
  | minus _ ih =>
    rw [plant_cons rfl]
    exact .minus (ih k)
  | number d text => exact .number d text
  | constant d c => exact .constant d c
  | parameter d =>
    have hone : plant chosen v k [⟨.symbol .parameter, d⟩] =
        if chosen k then grouped v d else [⟨.symbol .parameter, d⟩] := List.append_nil _
    rw [hone, Tree.graft]
    split
    · have hinside := hv.raise (d + 1)
      rw [Nat.zero_add] at hinside
      exact .group hinside
    · exact .parameter d
  | group _ ih =>
    rw [plant_append, plant_cons rfl]
    exact .group (ih k)
  | firstArgument f _ ih =>
    rw [plant_cons rfl, plant_cons rfl]
    exact .firstArgument f (ih k)
  | @nextArgument d f l w args a hl _ ihl ihr =>
    have hargs : Tree.parametersAll args = l.countP Enclosed.isParameter := hl.parameters_eq
    rw [plant_append, plant_cons rfl, Tree.graft, Tree.graftAll_append, hargs]
    exact .nextArgument (ihl k) (ihr _)
  | called _ hn ih =>
    rw [plant_append]
    exact .called (ih k) ((Tree.length_graftAll _ _).trans hn)

/-- The constructs around the lexemes in parentheses are those around the parameter, the parentheses
and those inside. -/
theorem bounded_plant {limit n k : Nat} {w : List Enclosed} (hw : Bounded limit w)
    (hv : Bounded n v) (h : ∀ m x, (w.filter Enclosed.isParameter)[m]? = some x →
      chosen (k + m) = true → x.depth + 1 + n ≤ limit) :
    Bounded limit (plant chosen v k w) := by
  induction w generalizing k with
  | nil => exact bounded_nil
  | cons x rest ih =>
    obtain ⟨hx, hrest⟩ := bounded_cons.1 hw
    rw [plant]
    split
    · next hparameter =>
      rw [List.filter_cons_of_pos hparameter] at h
      refine bounded_append.2 ⟨?_, ih hrest fun m y hy hm => h (m + 1) y hy ?_⟩
      · split
        · next hchosen =>
          have hdeep := h 0 x rfl hchosen
          refine bounded_append.2 ⟨bounded_cons.2 ⟨hx, fun y hy => ?_⟩, by simpa [Bounded] using hx⟩
          obtain ⟨z, hz, rfl⟩ := List.mem_map.1 hy
          have hzn := hv z hz
          show z.depth + (x.depth + 1) ≤ limit
          omega
        · simpa [Bounded] using hx
      · rwa [Nat.add_assoc, Nat.add_comm 1] at hm
    · next hparameter =>
      rw [List.filter_cons_of_neg hparameter] at h
      exact bounded_cons.2 ⟨hx, ih hrest h⟩

/-! ## Values -/

section

variable {program : Program} {u y : Float}

/-- Trees whose values agree agree as arguments. -/
theorem exists_evalAll_graft {args : List Tree}
    (h : ∀ a ∈ args, ∀ k, ∃ p q, a.resolve = .ok p ∧
      (a.graft (fun _ => true) r k).resolve = .ok q ∧ q.eval? true u = p.eval? true y) (k : Nat) :
    ∃ ps qs, Tree.resolveAll args = .ok ps ∧
      Tree.resolveAll (Tree.graftAll args (fun _ => true) r k) = .ok qs ∧
      ps.length = args.length ∧ qs.length = args.length ∧
      Program.evalAll? true u qs = Program.evalAll? true y ps := by
  induction args generalizing k with
  | nil => exact ⟨[], [], rfl, rfl, rfl, rfl, rfl⟩
  | cons a rest ih =>
    obtain ⟨p, q, hp, hq, hvalue⟩ := h a (by simp) k
    obtain ⟨ps, qs, hps, hqs, hpslen, hqslen, hvalues⟩ :=
      ih (fun b hb => h b (List.mem_cons_of_mem _ hb)) (k + a.parameters)
    refine ⟨p :: ps, q :: qs, ?_, ?_, by simp [hpslen], by simp [hqslen], ?_⟩
    · simp only [Tree.resolveAll, hp, hps]
      rfl
    · simp only [Tree.graftAll, Tree.resolveAll, hq, hqs]
      rfl
    · simp only [Program.evalAll?, hvalue, hvalues]

/-- **With `r` in place of every parameter, the value is that at the value of `r`.** -/
theorem Tree.Proper.eval_graft {t : Tree} (ht : t.Proper) (hr : r.resolve = .ok program)
    (hy : program.eval? true u = some y) (k : Nat) :
    ∃ p q, t.resolve = .ok p ∧ (t.graft (fun _ => true) r k).resolve = .ok q ∧
      q.eval? true u = p.eval? true y := by
  induction ht generalizing k with
  | number x => exact ⟨_, _, rfl, rfl, rfl⟩
  | parameter => exact ⟨.parameter, program, rfl, hr, hy⟩
  | constant c =>
    refine ⟨.number c.value, .number c.value, ?_, ?_, rfl⟩
    · simp only [Tree.resolve, Constant.ofSpelling?_spelling]
    · simp only [Tree.graft, Tree.resolve, Constant.ofSpelling?_spelling]
  | @binary o left right _ _ ihl ihr =>
    obtain ⟨l, l', hl, hl', hleft⟩ := ihl k
    obtain ⟨m, m', hm, hm', hright⟩ := ihr (k + left.parameters)
    refine ⟨.binary o l m, .binary o l' m', ?_, ?_, ?_⟩
    · simp only [Tree.resolve, Operator.ofSign?_sign, hl, hm]
      rfl
    · simp only [Tree.graft, Tree.resolve, Operator.ofSign?_sign, hl', hm']
      rfl
    · simp only [Program.eval?, hleft, hright, Bool.true_or]
  | unary _ ih =>
    obtain ⟨p, q, hp, hq, hvalue⟩ := ih k
    refine ⟨.negate p, .negate q, ?_, ?_, ?_⟩
    · simp only [Tree.resolve, beq_self_eq_true, if_true, hp]
      rfl
    · simp only [Tree.graft, Tree.resolve, beq_self_eq_true, if_true, hq]
      rfl
    · simp only [Program.eval?, hvalue]
  | call f _ hn ih =>
    obtain ⟨ps, qs, hps, hqs, hpslen, hqslen, hvalues⟩ := exists_evalAll_graft ih k
    have hspare : Program.hasSpareCell f ps = false ∧ Program.hasSpareCell f qs = false := by
      simp [Program.hasSpareCell, hpslen, hqslen, hn]
    refine ⟨.call f ps, .call f qs, ?_, ?_, ?_⟩
    · simp only [Tree.resolve, Func.ofSpelling?_spelling, hps]
      rfl
    · simp only [Tree.graft, Tree.resolve, Func.ofSpelling?_spelling, hqs]
      rfl
    · simp only [Program.eval?, hvalues, hspare.1, hspare.2, Bool.true_or]

end

end SpaceCurve
