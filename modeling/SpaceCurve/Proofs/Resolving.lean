import SpaceCurve.Equation.Program
import SpaceCurve.Proofs.Outcome
import SpaceCurve.Proofs.Walking

/-!
# Where a tree fails to be a program

A tree that is built by hand may hold any number of names that mean nothing.  `Tree.resolve` is a
recursion that stops at one of them and says nothing about the others.  Which one it is can be told
from `Tree.walk`, although that is no recursion and knows nothing about names: both come to a node
before its children, and to the children from left to right.

## What is here

* `Tree.Known` — the node says something that is in the lexicon, and `Tree.Offends` — it does not, and
  this is the error that belongs to it.
* `Tree.fault?` — the same as a function: the error of a node, if it has one.
* `Tree.error_resolve` — a tree has the error of its root, or else the first one of its children, and
  so the first one of all its nodes (`Tree.error_resolve_eq_findSome`).
* `Tree.resolve_reports_first` — when a tree is a program, and what the error is if it is none.
-/

set_option autoImplicit false

namespace SpaceCurve

/-! ## Names of the lexicon -/

/-- Nothing is found under a name if nothing has that name, provided that all there is is searched. -/
theorem find?_name_eq_none_iff {α : Type} {all : List α} (hall : ∀ x, x ∈ all) {nameOf : α → String}
    {name : String} : (all.find? fun x => nameOf x == name) = none ↔ ∀ x, nameOf x ≠ name := by
  simp [List.find?_eq_none, hall]

theorem Constant.ofSpelling?_eq_none_iff {name : String} :
    ofSpelling? name = none ↔ ∀ c : Constant, c.spelling ≠ name :=
  find?_name_eq_none_iff fun c => by cases c <;> decide

theorem Operator.ofSign?_eq_none_iff {sign : String} :
    ofSign? sign = none ↔ ∀ o : Operator, o.sign ≠ sign :=
  find?_name_eq_none_iff fun o => by cases o <;> decide

theorem Func.ofSpelling?_eq_none_iff {name : String} :
    ofSpelling? name = none ↔ ∀ f : Func, f.spelling ≠ name :=
  find?_name_eq_none_iff mem_all

namespace Tree

/-! ## Nodes -/

/-- The node has an operator, a constant or a function of the lexicon if it should have one.  How
many arguments a call has makes no difference. -/
def Known : Tree → Prop
  | number _ => True
  | parameter _ => True
  | constant name => ∃ c : Constant, c.spelling = name
  | binary op _ _ => ∃ o : Operator, o.sign = op
  | unary op _ => op = Lexicon.negation
  | call name _ => ∃ f : Func, f.spelling = name
  | blank => False

/-- The node is not in the lexicon, and the error says what it has instead. -/
inductive Offends : Tree → ResolveFault → Prop
  | constant {name : String} (h : ∀ c : Constant, c.spelling ≠ name) :
      Offends (.constant name) (.unknownConstant name)
  | binary {op : String} (left right : Tree) (h : ∀ o : Operator, o.sign ≠ op) :
      Offends (.binary op left right) (.unknownOperator op)
  | unary {op : String} (arg : Tree) (h : op ≠ Lexicon.negation) :
      Offends (.unary op arg) (.unknownSign op)
  | call {name : String} (args : List Tree) (h : ∀ f : Func, f.spelling ≠ name) :
      Offends (.call name args) (.unknownFunction name)
  | blank : Offends .blank .unknownNode

/-- What a node is called in an error: by its operator or its name, or else by its type. -/
def label : Tree → String
  | number _ => "NumberNode"
  | parameter name => name
  | constant name => name
  | binary op _ _ => op
  | unary op _ => op
  | call name _ => name
  | blank => "ASTNode"

/-- The error of a node names it. -/
theorem Offends.exists_message {t : Tree} {fault : ResolveFault} (h : t.Offends fault) :
    ∃ intro, fault.message = intro ++ t.label := by
  cases h with
  | constant _ => exact ⟨"", (String.empty_append).symm⟩
  | binary _ _ _ => exact ⟨_, rfl⟩
  | unary _ _ => exact ⟨_, rfl⟩
  | call _ _ => exact ⟨_, rfl⟩
  | blank => exact ⟨"Unknown node type: ", by decide⟩

/-- The error that belongs to the node, whatever its children are. -/
def fault? : Tree → Option ResolveFault
  | number _ => none
  | parameter _ => none
  | constant name =>
    if Constant.ofSpelling? name = none then some (.unknownConstant name) else none
  | binary op _ _ => if Operator.ofSign? op = none then some (.unknownOperator op) else none
  | unary op _ => if op ≠ Lexicon.negation then some (.unknownSign op) else none
  | call name _ => if Func.ofSpelling? name = none then some (.unknownFunction name) else none
  | blank => some .unknownNode

theorem fault?_eq_none_iff {t : Tree} : t.fault? = none ↔ t.Known := by
  cases t <;> simp [fault?, Known, Constant.ofSpelling?_eq_none_iff, Operator.ofSign?_eq_none_iff,
    Func.ofSpelling?_eq_none_iff]

theorem fault?_eq_some_iff {t : Tree} {fault : ResolveFault} :
    t.fault? = some fault ↔ t.Offends fault := by
  constructor
  · intro h
    cases t with
    | number x => cases h
    | parameter name => cases h
    | constant name =>
      obtain ⟨hname, hfault⟩ := Option.ite_none_right_eq_some.1 h
      exact Option.some.inj hfault ▸ .constant (Constant.ofSpelling?_eq_none_iff.1 hname)
    | binary op left right =>
      obtain ⟨hop, hfault⟩ := Option.ite_none_right_eq_some.1 h
      exact Option.some.inj hfault ▸ .binary left right (Operator.ofSign?_eq_none_iff.1 hop)
    | unary op arg =>
      obtain ⟨hop, hfault⟩ := Option.ite_none_right_eq_some.1 h
      exact Option.some.inj hfault ▸ .unary arg hop
    | call name args =>
      obtain ⟨hname, hfault⟩ := Option.ite_none_right_eq_some.1 h
      exact Option.some.inj hfault ▸ .call args (Func.ofSpelling?_eq_none_iff.1 hname)
    | blank => exact Option.some.inj h ▸ .blank
  · intro h
    cases h with
    | constant h => exact if_pos (Constant.ofSpelling?_eq_none_iff.2 h)
    | binary _ _ h => exact if_pos (Operator.ofSign?_eq_none_iff.2 h)
    | unary _ h => exact if_pos h
    | call _ h => exact if_pos (Func.ofSpelling?_eq_none_iff.2 h)
    | blank => rfl

/-! ## Trees -/

theorem error_resolveAll_cons (t : Tree) (rest : List Tree) :
    error? (resolveAll (t :: rest)) = (error? t.resolve).or (error? (resolveAll rest)) := by
  rw [resolveAll]
  exact error?_bind_map _ _ List.cons

/-- **A tree has the error of its root, or else that of its children.** -/
theorem error_resolve (t : Tree) :
    error? t.resolve = t.fault?.or (error? (resolveAll t.children)) := by
  cases t with
  | number x => rfl
  | parameter name => rfl
  | constant name =>
    rw [resolve, fault?]
    cases Constant.ofSpelling? name <;> rfl
  | binary op left right =>
    rw [resolve, fault?, children, error_resolveAll_cons, error_resolveAll_cons]
    cases Operator.ofSign? op with
    | none => rfl
    | some o =>
      refine (error?_bind_map _ _ _).trans (congrArg _ ?_)
      exact (Option.or_none).symm
  | unary op arg =>
    rw [resolve, fault?, children, error_resolveAll_cons]
    by_cases hop : op = Lexicon.negation
    · rw [if_pos (beq_iff_eq.2 hop), if_neg (not_not.2 hop), error?_map]
      exact (Option.or_none).symm
    · rw [if_neg (mt beq_iff_eq.1 hop), if_pos hop]
      rfl
  | call name args =>
    rw [resolve, fault?]
    cases Func.ofSpelling? name with
    | none => rfl
    | some f => exact error?_map _ _
  | blank => rfl

/-- If each of several trees has the first error among its nodes, then so have all of them. -/
theorem error_resolveAll {trees : List Tree}
    (h : ∀ t ∈ trees, error? t.resolve = t.walk.findSome? fault?) :
    error? (resolveAll trees) = (trees.flatMap walk).findSome? fault? := by
  induction trees with
  | nil => rfl
  | cons t rest ih =>
    rw [error_resolveAll_cons, h t List.mem_cons_self, ih fun s hs => h s (List.mem_cons_of_mem _ hs),
      List.flatMap_cons, List.findSome?_append]

/-- **The error of a tree is the first one among its nodes.** -/
theorem error_resolve_eq_findSome (t : Tree) : error? t.resolve = t.walk.findSome? fault? := by
  induction t using inductionOnChildren with
  | step t ih =>
    rw [error_resolve, error_resolveAll ih, walk_eq, List.findSome?_cons]
    cases t.fault? <;> rfl

/-- **A tree is a program exactly if all its nodes are known.**  If it is none, then the error is that
of the first node on the walk through the tree that is not known, and names it. -/
theorem resolve_reports_first (t : Tree) :
    ((∃ p, t.resolve = .ok p) ↔ t.Everywhere Known) ∧
      (∀ fault, t.resolve = .error fault ↔ ∃ before node after,
        t.walk = before ++ node :: after ∧ node.Offends fault ∧ ∀ other ∈ before, other.Known) ∧
      ∀ node fault, Offends node fault → ∃ intro, fault.message = intro ++ node.label := by
  refine ⟨?_, fun fault => ?_, fun _ _ h => h.exists_message⟩
  · rw [← error?_eq_none_iff, error_resolve_eq_findSome, List.findSome?_eq_none_iff]
    exact forall₂_congr fun node _ => fault?_eq_none_iff
  · simp only [← error?_eq_some_iff, error_resolve_eq_findSome, List.findSome?_eq_some_iff,
      fault?_eq_none_iff, fault?_eq_some_iff]

end Tree
end SpaceCurve
