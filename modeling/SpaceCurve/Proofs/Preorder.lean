import SpaceCurve.Proofs.Walking

/-!
# The order of a walk

`Tree.walk` comes from a loop over a stack.  A round takes one tree off and puts any number of trees
on, so that the stack may grow.  What becomes smaller is the number of all nodes on it, and what
stays the same is the list of nodes that have been seen together with those that the stack still
stands for.  These two facts are about one round (`Visiting.size_next`, `Visiting.foreseen_next`),
and from them the loop is known to end, and where.

That no node is seen twice cannot be said of nodes, since equal ones may stand at several places of
a tree.  It is said of places.

## What is here

* `Tree.Visiting` — the state of the loop, with the top of the stack on the right, and
  `Visiting.next?`, one round of it.
* `Tree.at?` — the node at a place, where a place is the list of the children through which the way
  from the root goes.
* `Tree.places` — all places of a tree.  They are in dictionary order (`pairwise_places`), which
  comes to a place before those below it, and to these from left to right.
* `walk_in_preorder` — the loop ends with the walk, the walk is the recursion over the children, and
  it is the nodes at all the places.
-/

set_option autoImplicit false

namespace SpaceCurve
namespace Tree

/-! ## The loop -/

/-- The trees that are still to be visited, the next one last, and the nodes that have been seen. -/
structure Visiting where
  stack : List Tree
  seen : List Tree

namespace Visiting

/-- One round of the loop, if the stack is not empty: the last tree is taken off and seen, and its
children are put on in reverse, so that the first of them is the next one. -/
def next? (v : Visiting) : Option Visiting :=
  v.stack.getLast?.map fun t => ⟨v.stack.dropLast ++ t.children.reverse, v.seen ++ [t]⟩

/-- The state to which a round leads. -/
def Round (before after : Visiting) : Prop := before.next? = some after

/-- What will have been seen in the end. -/
def foreseen (v : Visiting) : List Tree := v.seen ++ walkStack v.stack.reverse

theorem round_iff {before after : Visiting} :
    before.Round after ↔ ∃ below t, before.stack = below ++ [t] ∧
      after = ⟨below ++ t.children.reverse, before.seen ++ [t]⟩ := by
  rw [Round, next?, Option.map_eq_some_iff]
  constructor
  · rintro ⟨t, ht, rfl⟩
    exact ⟨before.stack.dropLast, t, (List.dropLast_append_getLast? t ht).symm, rfl⟩
  · rintro ⟨below, t, hstack, rfl⟩
    exact ⟨t, by rw [hstack, List.getLast?_concat], by rw [hstack, List.dropLast_concat]⟩

/-- The loop ends when the stack is empty, and only then. -/
theorem next?_eq_none_iff {v : Visiting} : v.next? = none ↔ v.stack = [] := by
  rw [next?, Option.map_eq_none_iff, List.getLast?_eq_none_iff]

end Visiting

theorem sizeAll_reverse (trees : List Tree) : sizeAll trees.reverse = sizeAll trees := by
  induction trees with
  | nil => rfl
  | cons t rest ih =>
    rw [List.reverse_cons, sizeAll_append, ih, sizeAll, sizeAll, sizeAll]
    omega

namespace Visiting

variable {before after : Visiting}

/-- **A round takes one node off the stack**, the root of a tree whose other nodes stay. -/
theorem size_next (h : before.Round after) : sizeAll before.stack = sizeAll after.stack + 1 := by
  obtain ⟨below, t, hstack, rfl⟩ := round_iff.1 h
  rw [hstack, sizeAll_append, sizeAll_append, sizeAll_reverse, sizeAll, sizeAll, size_eq]
  omega

/-- **A round does not change what will have been seen.** -/
theorem foreseen_next (h : before.Round after) : after.foreseen = before.foreseen := by
  obtain ⟨below, t, hstack, rfl⟩ := round_iff.1 h
  rw [foreseen, foreseen, hstack, List.reverse_append, List.reverse_append, List.reverse_reverse,
    List.reverse_singleton, List.singleton_append, walkStack, List.append_assoc,
    List.singleton_append]

/-- There is no endless run of the loop, from whatever state. -/
theorem wellFounded_round : WellFounded fun after before : Visiting => before.Round after := by
  refine Subrelation.wf (fun h => ?_) (measure fun v : Visiting => sizeAll v.stack).wf
  exact Nat.lt_of_succ_le (size_next h).ge

/-- **From every state the loop ends with what was foreseen.** -/
theorem run (v : Visiting) : Relation.ReflTransGen Round v ⟨[], v.foreseen⟩ := by
  induction v using wellFounded_round.induction with
  | h v ih =>
    cases hnext : v.next? with
    | none =>
      obtain ⟨stack, seen⟩ := v
      obtain rfl : stack = [] := next?_eq_none_iff.1 hnext
      rw [foreseen, List.reverse_nil, walkStack, List.append_nil]
    | some after =>
      rw [← foreseen_next hnext]
      exact .head hnext (ih after hnext)

end Visiting

/-! ## Places -/

/-- The node at a place: each number leads from a node to one of its children. -/
def at? : Tree → List Nat → Option Tree
  | t, [] => some t
  | t, i :: rest => t.children[i]?.bind fun child => child.at? rest

mutual

/-- The places of the nodes of a tree. -/
def places : Tree → List (List Nat)
  | binary _ left right => [] :: (left.places.map (0 :: ·) ++ right.places.map (1 :: ·))
  | unary _ arg => [] :: arg.places.map (0 :: ·)
  | call _ args => [] :: placesFrom args 0
  | _ => [[]]

/-- The places below a node whose children with the numbers from `i` on are given. -/
def placesFrom : List Tree → Nat → List (List Nat)
  | [], _ => []
  | t :: rest, i => t.places.map (i :: ·) ++ placesFrom rest (i + 1)

end

theorem places_eq (t : Tree) : t.places = [] :: placesFrom t.children 0 := by
  cases t <;> simp [places, placesFrom, children]

variable {trees : List Tree} {i : Nat} {place : List Nat}

theorem mem_placesFrom_iff : place ∈ placesFrom trees i ↔
    ∃ k t below, trees[k]? = some t ∧ place = (i + k) :: below ∧ below ∈ t.places := by
  induction trees generalizing i with
  | nil => simp [placesFrom]
  | cons t rest ih =>
    rw [placesFrom, List.mem_append, List.mem_map, ih]
    constructor
    · rintro (⟨below, hbelow, rfl⟩ | ⟨k, s, below, hk, rfl, hbelow⟩)
      · exact ⟨0, t, below, rfl, rfl, hbelow⟩
      · exact ⟨k + 1, s, below, hk, by rw [Nat.add_right_comm, Nat.add_assoc], hbelow⟩
    · rintro ⟨_ | k, s, below, hk, rfl, hbelow⟩
      · exact .inl ⟨below, Option.some.inj hk ▸ hbelow, rfl⟩
      · exact .inr ⟨k, s, below, hk, by rw [Nat.add_right_comm, Nat.add_assoc], hbelow⟩

/-- **There is a node at just these places.** -/
theorem mem_places_iff (t : Tree) (place : List Nat) :
    place ∈ t.places ↔ ∃ node, t.at? place = some node := by
  induction t using inductionOnChildren generalizing place with
  | step t ih =>
    rw [places_eq]
    cases place with
    | nil => simp [at?]
    | cons i rest =>
      simp only [List.mem_cons, reduceCtorEq, false_or, mem_placesFrom_iff, at?,
        Option.bind_eq_some_iff, Nat.zero_add, List.cons.injEq]
      constructor
      · rintro ⟨_, child, _, hchild, ⟨rfl, rfl⟩, hrest⟩
        obtain ⟨node, hnode⟩ := (ih child (List.mem_of_getElem? hchild) rest).1 hrest
        exact ⟨node, child, hchild, hnode⟩
      · rintro ⟨node, child, hchild, hnode⟩
        exact ⟨i, child, rest, hchild, ⟨rfl, rfl⟩,
          (ih child (List.mem_of_getElem? hchild) rest).2 ⟨node, hnode⟩⟩

/-- The places below the children of a node are in dictionary order if those of each child are. -/
theorem pairwise_placesFrom (h : ∀ t ∈ trees, t.places.Pairwise (· < ·)) (i : Nat) :
    (placesFrom trees i).Pairwise (· < ·) := by
  induction trees generalizing i with
  | nil => exact .nil
  | cons t rest ih =>
    obtain ⟨ht, hrest⟩ := List.forall_mem_cons.1 h
    rw [placesFrom, List.pairwise_append]
    refine ⟨List.pairwise_map.2 (ht.imp List.cons_lt_cons_self.2), ih hrest (i + 1), ?_⟩
    -- the places of the first child have a smaller first number than all that follow
    intro place hplace other hother
    obtain ⟨below, -, rfl⟩ := List.mem_map.1 hplace
    obtain ⟨k, s, others, -, rfl, -⟩ := mem_placesFrom_iff.1 hother
    exact List.cons_lt_cons_iff.2 (.inl (by omega))

/-- **The places of a tree are in dictionary order**, so that none is there twice. -/
theorem pairwise_places (t : Tree) : t.places.Pairwise (· < ·) := by
  induction t using inductionOnChildren with
  | step t ih =>
    rw [places_eq, List.pairwise_cons]
    refine ⟨fun place hplace => ?_, pairwise_placesFrom ih 0⟩
    obtain ⟨k, s, below, -, rfl, -⟩ := mem_placesFrom_iff.1 hplace
    exact List.nil_lt_cons _ _

/-- What is at the places below the children of a node is what is at the places of each child. -/
theorem map_at?_placesFrom {t : Tree} {before : List Tree} (ht : t.children = before ++ trees) :
    (placesFrom trees before.length).map t.at? =
      trees.flatMap fun child => child.places.map child.at? := by
  induction trees generalizing before with
  | nil => rfl
  | cons child rest ih =>
    have hchild : t.children[before.length]? = some child := by simp [ht]
    have hrest := @ih (before ++ [child]) (by rw [ht, List.append_assoc, List.singleton_append])
    rw [List.length_append, List.length_singleton] at hrest
    rw [placesFrom, List.map_append, hrest, List.flatMap_cons, List.map_map]
    congr 1
    refine List.map_congr_left fun below _ => ?_
    rw [Function.comp_apply, at?, hchild, Option.bind_some]

/-- **The walk goes through the places.** -/
theorem map_at?_places (t : Tree) : t.places.map t.at? = t.walk.map some := by
  induction t using inductionOnChildren with
  | step t ih =>
    have hbelow := @map_at?_placesFrom t.children t [] rfl
    rw [List.length_nil] at hbelow
    rw [places_eq, walk_eq, List.map_cons, hbelow, List.map_cons, at?, List.map_flatMap]
    exact congrArg _ (List.flatMap_congr ih)

/-! ## The walk -/

/-- The loop makes a round for every node. -/
theorem length_walkStack (stack : List Tree) : (walkStack stack).length = sizeAll stack := by
  induction stack using walkStack.induct with
  | case1 => rw [walkStack, sizeAll, List.length_nil]
  | case2 t below ih =>
    rw [walkStack, List.length_cons, ih, sizeAll_append, sizeAll, size_eq]
    omega

/-- **The walk is the tree in pre-order.**  The loop cannot go on for ever, and from the tree alone
on the stack it ends with the walk; the walk is the root and then the walk of each child, from left
to right; and it has the nodes at all places of the tree, each once, in the order of the places. -/
theorem walk_in_preorder (t : Tree) :
    (WellFounded (fun after before : Visiting => before.Round after) ∧
      Relation.ReflTransGen Visiting.Round ⟨[t], []⟩ ⟨[], t.walk⟩ ∧
      ∀ after, ¬ Visiting.Round ⟨[], t.walk⟩ after) ∧
    t.walk = t :: t.children.flatMap walk ∧
    (t.walk.map some = t.places.map t.at? ∧
      (∀ place, place ∈ t.places ↔ ∃ node, t.at? place = some node) ∧
      t.places.Pairwise (· < ·) ∧ t.walk.length = t.size) := by
  have hloop : Relation.ReflTransGen Visiting.Round ⟨[t], []⟩ ⟨[], t.walk⟩ := Visiting.run ⟨[t], []⟩
  have hlength : t.walk.length = t.size := (length_walkStack [t]).trans (Nat.add_zero _)
  exact ⟨⟨Visiting.wellFounded_round, hloop, fun _ => nofun⟩, walk_eq t,
    (map_at?_places t).symm, mem_places_iff t, pairwise_places t, hlength⟩

end Tree
end SpaceCurve
