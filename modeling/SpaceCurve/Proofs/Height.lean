import SpaceCurve.Proofs.Substitution
import SpaceCurve.Proofs.Walking

/-!
# How high a tree can be

At most 64 constructs nest, and one would like to say that the tree of an equation is no higher
than that.  It can be: a chain of operators is folded to the left, where each operator puts one more
level on top of the tree without nesting anything.  What bounds a chain is the length of the text.
So each level is paid for, with two lexemes or, if it is a minus sign, with one lexeme and one of the
64 constructs, and the two bounds add up to one.

## What is here

* `Tree.height` — the number of steps from the root to the deepest leaf, and `Tree.nesting`, the
  greatest number of nodes on the way to a leaf that are a minus sign, a call or a power that is left
  through its exponent.
* `Tree.Branch` — the ways from the root to a leaf.  `Branch.length_le`, `exists_branch` and
  `Branch.countP_le` say that the two functions bound them all.
* `Derives.height_le`, `Derives.nesting_le` — what a phrase pays: its lexemes and the constructs that
  are not open around it.
* `height_of_parse` — what this says about an equation.
-/

set_option autoImplicit false

namespace SpaceCurve
namespace Tree

/-! ## Height and nesting -/

mutual

/-- The number of steps from the root of the tree to its deepest leaf. -/
def height : Tree → Nat
  | binary _ left right => max (left.height + 1) (right.height + 1)
  | unary _ arg => arg.height + 1
  | call _ args => heightAbove args
  | _ => 0

/-- The height of a node with the given children. -/
def heightAbove : List Tree → Nat
  | [] => 0
  | t :: rest => max (t.height + 1) (heightAbove rest)

end

mutual

/-- The greatest number of nodes on the way to a leaf that are minus signs, calls, or powers that are
left through the exponent. -/
def nesting : Tree → Nat
  | binary op left right =>
    max left.nesting (right.nesting + if op == Operator.pow.sign then 1 else 0)
  | unary op arg => arg.nesting + if op == Lexicon.negation then 1 else 0
  | call _ args => nestingAll args + 1
  | _ => 0

/-- The greatest nesting of several trees. -/
def nestingAll : List Tree → Nat
  | [] => 0
  | t :: rest => max t.nesting (nestingAll rest)

end

theorem height_eq (t : Tree) : t.height = heightAbove t.children := by
  cases t <;> simp [height, heightAbove, children]

/-- Only a power counts among the operators between two operands. -/
theorem nesting_binary {o : Operator} (ho : o ≠ .pow) (left right : Tree) :
    (binary o.sign left right).nesting = max left.nesting right.nesting := by
  rw [nesting]
  cases o with
  | pow => exact absurd rfl ho
  | _ => rfl

theorem heightAbove_append (xs ys : List Tree) :
    heightAbove (xs ++ ys) = max (heightAbove xs) (heightAbove ys) := by
  induction xs with
  | nil => simp [heightAbove]
  | cons x xs ih => rw [List.cons_append, heightAbove, heightAbove, ih, max_assoc]

theorem nestingAll_append (xs ys : List Tree) :
    nestingAll (xs ++ ys) = max (nestingAll xs) (nestingAll ys) := by
  induction xs with
  | nil => simp [nestingAll]
  | cons x xs ih => rw [List.cons_append, nestingAll, nestingAll, ih, max_assoc]

theorem height_lt_of_mem {t : Tree} {trees : List Tree} (h : t ∈ trees) :
    t.height < heightAbove trees := by
  induction trees with
  | nil => cases h
  | cons x rest ih =>
    rw [heightAbove]
    rcases List.mem_cons.1 h with rfl | h
    · exact Nat.lt_of_succ_le (le_max_left _ _)
    · exact (ih h).trans_le (le_max_right _ _)

theorem exists_highest {trees : List Tree} (h : trees ≠ []) :
    ∃ (k : Nat) (t : Tree), trees[k]? = some t ∧ t.height + 1 = heightAbove trees := by
  induction trees with
  | nil => exact absurd rfl h
  | cons x rest ih =>
    by_cases hx : heightAbove rest ≤ x.height + 1
    · exact ⟨0, x, rfl, by rw [heightAbove, max_eq_left hx]⟩
    · have hrest : rest ≠ [] := by
        rintro rfl
        exact hx (Nat.zero_le _)
      obtain ⟨k, t, hk, ht⟩ := ih hrest
      exact ⟨k + 1, t, hk, by rw [heightAbove, ht, max_eq_right (by omega)]⟩

theorem nesting_le_of_mem {t : Tree} {trees : List Tree} (h : t ∈ trees) :
    t.nesting ≤ nestingAll trees := by
  induction trees with
  | nil => cases h
  | cons x rest ih =>
    rw [nestingAll]
    rcases List.mem_cons.1 h with rfl | h
    · exact le_max_left _ _
    · exact (ih h).trans (le_max_right _ _)

/-! ## Branches -/

/-- A node on the way down a tree, and the number of the child through which the way goes on. -/
structure Visit where
  node : Tree
  exit : Option Nat

/-- Whether the node is a minus sign, a call, or a power that is left through its exponent. -/
def Visit.nests (v : Visit) : Bool :=
  match v.node with
  | binary op _ _ => op == Operator.pow.sign && v.exit == some 1
  | unary op _ => op == Lexicon.negation
  | call _ _ => true
  | _ => false

/-- The nodes on a way from the root of a tree to one of its leaves. -/
inductive Branch : Tree → List Visit → Prop
  | leaf {t : Tree} (h : t.children = []) : Branch t [⟨t, none⟩]
  | down {t child : Tree} {k : Nat} {way : List Visit} (hk : t.children[k]? = some child)
      (h : Branch child way) : Branch t (⟨t, some k⟩ :: way)

/-- No branch is longer than the tree is high. -/
theorem Branch.length_le {t : Tree} {way : List Visit} (h : t.Branch way) :
    way.length ≤ t.height + 1 := by
  induction h with
  | leaf => exact Nat.le_add_left 1 _
  | @down t child k way hk _ ih =>
    have hlt := height_lt_of_mem (List.mem_of_getElem? hk)
    rw [← height_eq] at hlt
    exact Nat.succ_le_succ (ih.trans hlt)

/-- Some branch is as long as the tree is high. -/
theorem exists_branch (t : Tree) : ∃ way, t.Branch way ∧ way.length = t.height + 1 := by
  induction t using inductionOnChildren with
  | step t ih =>
    by_cases hleaf : t.children = []
    · exact ⟨_, .leaf hleaf, by rw [height_eq t, hleaf]; rfl⟩
    · obtain ⟨k, child, hk, hheight⟩ := exists_highest hleaf
      obtain ⟨way, hway, hlength⟩ := ih child (List.mem_of_getElem? hk)
      exact ⟨_, .down hk hway, by rw [List.length_cons, hlength, hheight, ← height_eq]⟩

/-- A child nests no more than its parent, and less if the parent counts on the way to it. -/
theorem nesting_of_child {t child : Tree} {k : Nat} (hk : t.children[k]? = some child) :
    child.nesting + (if Visit.nests ⟨t, some k⟩ then 1 else 0) ≤ t.nesting := by
  cases t with
  | binary op left right =>
    rw [nesting]
    match k, hk with
    | 0, hk =>
      obtain rfl : left = child := Option.some.inj hk
      simp [Visit.nests]
    | 1, hk =>
      obtain rfl : right = child := Option.some.inj hk
      simp [Visit.nests]
  | unary op arg =>
    match k, hk with
    | 0, hk =>
      obtain rfl : arg = child := Option.some.inj hk
      exact le_rfl
  | call name args => exact Nat.succ_le_succ (nesting_le_of_mem (List.mem_of_getElem? hk))
  | _ => cases hk

/-- No branch has more such nodes than the nesting of the tree says. -/
theorem Branch.countP_le {t : Tree} {way : List Visit} (h : t.Branch way) :
    way.countP Visit.nests ≤ t.nesting := by
  induction h with
  | @leaf t h =>
    cases t with
    | binary op left right => cases h
    | unary op arg => cases h
    | call name args => exact Nat.le_add_left 1 _
    | _ => exact le_rfl
  | @down t child k way hk _ ih =>
    rw [List.countP_cons]
    exact (Nat.add_le_add_right ih _).trans (nesting_of_child hk)

end Tree

/-! ## Phrases of the grammar -/

section

variable {p : Phrase} {d limit : Nat} {w : List Enclosed} {t : Tree}

theorem Derives.length_pos (h : Derives p d w t) : 0 < w.length := by
  obtain ⟨x, rest, rfl, -⟩ := h.exists_head
  exact Nat.succ_pos _

/-- The two operands pay for the operator between them, which is a lexeme itself. -/
theorem height_binary_le (op : String) (x : Enclosed) {l r : List Enclosed} {a b : Tree}
    (hl : 0 < l.length) (hr : 0 < r.length) (ha : 2 * a.height + 1 + d ≤ l.length + limit)
    (hb : 2 * b.height + 1 + d ≤ r.length + limit) :
    2 * (Tree.binary op a b).height + 1 + d ≤ (l ++ x :: r).length + limit := by
  rw [Tree.height, List.length_append, List.length_cons]
  omega

/-- **Two lexemes pay for a level of the tree, and so do a lexeme and a construct.** -/
theorem Derives.height_le (h : Derives p d w t) (hw : Bounded limit w) :
    2 * t.height + 1 + d ≤ w.length + limit := by
  induction h with
  | ofTerm _ ih => exact ih hw
  | ofUnary _ ih => exact ih hw
  | ofPower _ ih => exact ih hw
  | ofPrimary _ ih => exact ih hw
  | number d => exact Nat.add_le_add_left (bounded_cons.1 hw).1 1
  | parameter d => exact Nat.add_le_add_left (bounded_cons.1 hw).1 1
  | constant d => exact Nat.add_le_add_left (bounded_cons.1 hw).1 1
  | sum _ hl hr ihl ihr =>
    obtain ⟨hleft, hright⟩ := bounded_append.1 hw
    exact height_binary_le _ _ hl.length_pos hr.length_pos (ihl hleft)
      (ihr (bounded_cons.1 hright).2)
  | product _ hl hr ihl ihr =>
    obtain ⟨hleft, hright⟩ := bounded_append.1 hw
    exact height_binary_le _ _ hl.length_pos hr.length_pos (ihl hleft)
      (ihr (bounded_cons.1 hright).2)
  | raised hl hr ihl ihr =>
    obtain ⟨hleft, hright⟩ := bounded_append.1 hw
    have hexponent := ihr (bounded_cons.1 hright).2
    exact height_binary_le _ _ hl.length_pos hr.length_pos (ihl hleft) (by omega)
  | minus _ ih =>
    -- one lexeme, and the operand is enclosed by one construct more
    have harg := ih (bounded_cons.1 hw).2
    rw [Tree.height, List.length_cons]
    omega
  | group _ ih =>
    have hinner := ih (bounded_append.1 (bounded_cons.1 hw).2).1
    rw [List.cons_append, List.length_cons, List.length_append]
    omega
  | firstArgument f _ ih =>
    have harg := ih (bounded_cons.1 (bounded_cons.1 hw).2).2
    simp only [Tree.height, Tree.heightAbove, List.length_cons]
    omega
  | nextArgument hl _ ihl ihr =>
    obtain ⟨hleft, hright⟩ := bounded_append.1 hw
    have hbefore := ihl hleft
    have harg := ihr (bounded_cons.1 hright).2
    have hpos := hl.length_pos
    simp only [Tree.height, Tree.heightAbove_append, Tree.heightAbove, List.length_append,
      List.length_cons] at hbefore ⊢
    omega
  | called _ _ ih =>
    have hcall := ih (bounded_append.1 hw).1
    rw [List.length_append]
    omega

/-- **Every construct that nests encloses what is in it**, so no more of them are on the way to a leaf
than the bound leaves. -/
theorem Derives.nesting_le (h : Derives p d w t) (hw : Bounded limit w) : t.nesting + d ≤ limit := by
  induction h with
  | ofTerm _ ih => exact ih hw
  | ofUnary _ ih => exact ih hw
  | ofPower _ ih => exact ih hw
  | ofPrimary _ ih => exact ih hw
  | number d => exact (Nat.zero_add d).trans_le (bounded_cons.1 hw).1
  | parameter d => exact (Nat.zero_add d).trans_le (bounded_cons.1 hw).1
  | constant d => exact (Nat.zero_add d).trans_le (bounded_cons.1 hw).1
  | sum ho _ _ ihl ihr =>
    obtain ⟨hleft, hright⟩ := bounded_append.1 hw
    have ha := ihl hleft
    have hb := ihr (bounded_cons.1 hright).2
    rw [Tree.nesting_binary (Parser.ne_pow_of_sum ho)]
    omega
  | product ho _ _ ihl ihr =>
    obtain ⟨hleft, hright⟩ := bounded_append.1 hw
    have ha := ihl hleft
    have hb := ihr (bounded_cons.1 hright).2
    rw [Tree.nesting_binary (Parser.ne_pow_of_product ho)]
    omega
  | raised _ _ ihl ihr =>
    obtain ⟨hleft, hright⟩ := bounded_append.1 hw
    have ha := ihl hleft
    have hb := ihr (bounded_cons.1 hright).2
    simp only [Tree.nesting, beq_self_eq_true, if_true]
    omega
  | minus _ ih =>
    have harg := ih (bounded_cons.1 hw).2
    simp only [Tree.nesting, beq_self_eq_true, if_true]
    omega
  | group _ ih =>
    have hinner := ih (bounded_append.1 (bounded_cons.1 hw).2).1
    omega
  | firstArgument f _ ih =>
    have harg := ih (bounded_cons.1 (bounded_cons.1 hw).2).2
    simp only [Tree.nesting, Tree.nestingAll]
    omega
  | nextArgument _ _ ihl ihr =>
    obtain ⟨hleft, hright⟩ := bounded_append.1 hw
    have hbefore := ihl hleft
    have harg := ihr (bounded_cons.1 hright).2
    simp only [Tree.nesting, Tree.nestingAll_append, Tree.nestingAll] at hbefore ⊢
    omega
  | called _ _ ih => exact ih (bounded_append.1 hw).1

end

/-! ## Texts -/

/-- A text has no more lexemes than characters. -/
theorem Lexer.Lexed.length_le {p q : Nat} {text after : List Char} {tokens : List Token}
    (h : Lexer.Lexed p text tokens q after) : tokens.length ≤ text.length := by
  induction h with
  | stop => exact Nat.zero_le _
  | blank _ _ ih => exact ih.trans (Nat.le_succ _)
  | lexeme hs _ _ ih =>
    have hpos := hs.length_pos
    rw [List.length_cons, List.length_append]
    omega

/-- An equation has at most 500 characters. -/
theorem length_le_of_parse {s : String} {e : Equation} (h : Equation.parse (.text s) = .ok e) :
    s.length ≤ 500 := by
  rw [Equation.parse, map_eq_ok_iff] at h
  obtain ⟨tree, htext, -⟩ := h
  exact String.length_toList ▸ (parseText_eq_ok_iff.1 htext).1

/-- **No equation has a tree that is too deep to walk down.**  Twice its height is at most the length
of the text and 63 more, so no tree is higher than 281; and on the way from the root to a leaf there
are at most 64 nodes that are a minus sign, a call, or a power left through its exponent.  The height
is the number of steps on the longest way. -/
theorem height_of_parse {s : String} {e : Equation} (h : Equation.parse (.text s) = .ok e) :
    2 * e.root.height ≤ s.length + 63 ∧ e.root.height ≤ 281 ∧
      IsGreatest {n | ∃ way, e.root.Branch way ∧ way.length = n + 1} e.root.height ∧
      ∀ way, e.root.Branch way → way.countP Tree.Visit.nests ≤ 64 := by
  obtain ⟨tokens, w, hreading⟩ := exists_reading h
  have hlexemes : w.length ≤ s.length := by
    have hlexed := (Lexer.tokenize_eq_ok_iff.1 hreading.tokens_eq).length_le
    have hlength := congrArg List.length hreading.lexemes_eq
    rw [List.length_map, List.length_map] at hlength
    rwa [String.length_toList, ← hlength] at hlexed
  have hheight : 2 * e.root.height + 1 + 0 ≤ w.length + 64 :=
    hreading.derives.height_le hreading.bounded
  have hnesting : e.root.nesting + 0 ≤ 64 := hreading.derives.nesting_le hreading.bounded
  have hlength := length_le_of_parse h
  refine ⟨by omega, by omega, ⟨e.root.exists_branch, ?_⟩, fun way hway =>
    hway.countP_le.trans hnesting⟩
  rintro n ⟨way, hway, hn⟩
  have hle := hway.length_le
  omega

/-- Sixty-four minus signs, and the parameter three times. -/
def signsAndTerms : List Char := List.replicate 64 '-' ++ ['t', '+', 't', '+', 't']

/-- The bounds are attained: the signs stand at the bottom of the tree, the sums on top of them. -/
theorem height_of_parse_signsAndTerms :
    ∃ e, Equation.parse (.text (String.ofList signsAndTerms)) = .ok e ∧ e.root.height = 66 ∧
      e.root.nesting = 64 ∧
      2 * e.root.height ≤ (String.ofList signsAndTerms).length + 63 ∧
      ∀ way, e.root.Branch way → way.countP Tree.Visit.nests ≤ 64 := by
  have hparse : (parseText signsAndTerms).map (fun root => (root.height, root.nesting)) =
      .ok (66, 64) := by
    decide +kernel
  obtain ⟨tree, htree, hmeasures⟩ := map_eq_ok_iff.1 hparse
  have he := Equation.parse_ofList htree
  obtain ⟨hheight, -, -, hways⟩ := height_of_parse he
  exact ⟨_, he, congrArg Prod.fst hmeasures, congrArg Prod.snd hmeasures, hheight, hways⟩

end SpaceCurve
