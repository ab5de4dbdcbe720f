import SpaceCurve.Equation.Tree
import Mathlib

/-!
# The nodes of a tree

`Tree.walk` keeps the trees that are still to be visited on a stack.  What it visits does not depend
on what lies below on the stack (`walkStack_append`), so the nodes of a tree are its root and then
the nodes of its children, one child after another (`walk_eq`).

`Tree.Everywhere P` — every node has the property `P`.  It goes down to the children
(`everywhere_iff`), which is the form that an induction over trees can use: `inductionOnChildren` goes
from the children of a tree to the tree, whatever kind of node its root is.
-/

set_option autoImplicit false

namespace SpaceCurve
namespace Tree

/-- **What is walked from the top of a stack does not depend on the rest of it.** -/
theorem walkStack_append (top rest : List Tree) :
    walkStack (top ++ rest) = walkStack top ++ walkStack rest := by
  induction top using walkStack.induct with
  | case1 => simp [walkStack]
  | case2 t below ih =>
    rw [List.cons_append, walkStack, walkStack, ← List.append_assoc, ih, List.cons_append]

theorem walkStack_eq_flatMap (stack : List Tree) : walkStack stack = stack.flatMap walk := by
  induction stack with
  | nil => simp [walkStack]
  | cons t rest ih =>
    rw [← List.singleton_append, walkStack_append, ih, List.flatMap_append, List.flatMap_singleton,
      walk]

/-- **The nodes of a tree are its root, and then those of its children.** -/
theorem walk_eq (t : Tree) : t.walk = t :: t.children.flatMap walk := by
  rw [walk, walkStack, List.append_nil, walkStack_eq_flatMap]

theorem size_le_of_mem {t : Tree} {trees : List Tree} (h : t ∈ trees) : t.size ≤ sizeAll trees := by
  induction trees with
  | nil => cases h
  | cons x rest ih =>
    rw [sizeAll]
    rcases List.mem_cons.1 h with rfl | h
    · exact Nat.le_add_right _ _
    · exact (ih h).trans (Nat.le_add_left _ _)

/-- What a tree inherits from its children is true of every tree. -/
@[elab_as_elim]
theorem inductionOnChildren {motive : Tree → Prop} (t : Tree)
    (step : ∀ t : Tree, (∀ child ∈ t.children, motive child) → motive t) : motive t := by
  induction hn : t.size using Nat.strongRecOn generalizing t with
  | ind n ih =>
    refine step t fun child hchild => ih child.size ?_ child rfl
    rw [← hn, size_eq t]
    exact Nat.lt_one_add_iff.2 (size_le_of_mem hchild)

/-- Every node of the tree has the property. -/
def Everywhere (P : Tree → Prop) (t : Tree) : Prop := ∀ node ∈ t.walk, P node

theorem everywhere_iff {P : Tree → Prop} {t : Tree} :
    t.Everywhere P ↔ P t ∧ ∀ child ∈ t.children, child.Everywhere P := by
  simp only [Everywhere, walk_eq t, List.forall_mem_cons, List.mem_flatMap]
  exact and_congr_right fun _ =>
    ⟨fun h child hchild node hnode => h node ⟨child, hchild, hnode⟩,
      fun h node ⟨child, hchild, hnode⟩ => h child hchild node hnode⟩

end Tree
end SpaceCurve
