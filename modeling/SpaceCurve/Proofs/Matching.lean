import SpaceCurve.Proofs.Enclosure

/-!
# Which parentheses match

The check on parentheses keeps a number and a greatest number, and stops where the number would drop
below zero.  Which parenthesis matches which is not in these numbers.  It is said here without
counting: two of them match if what is between them is a word of matching parentheses, and these
words are given by a grammar.

The count is then followed through the text from the left.  What it has read leaves as many
parentheses open as the number says, with words of the grammar between them (`Leaves`), so that a
closing parenthesis always finds the last open one, and at zero there is none that it could match.

## What is here

* `Nested` — the words of matching parentheses, and `Matches text i j` — the parenthesis that opens
  at `i` is matched by the one that closes at `j`.  No parenthesis has two matches
  (`Matches.left_unique`, `Matches.right_unique`).
* `surplus` — how many more parentheses open than close.  In a word of the grammar it is zero, and
  in no beginning of it less than zero.
* `Counted text depth m` — what is known when a text has been read.  `Counted.step` is about one
  character and `Counted.run` about the rest of the text.
* `encard_unmatched` — if all closing parentheses have a match, what is open is what has none.
* `balance_characterised` — the four figures of the check.
-/

set_option autoImplicit false

namespace SpaceCurve
namespace Balance

/-! ## Matching parentheses -/

/-- Whether the character is a parenthesis. -/
def isParenthesis (c : Char) : Bool := c == '(' || c == ')'

/-- The text with everything but parentheses taken out. -/
def parentheses (text : List Char) : List Char := text.filter isParenthesis

/-- The words of matching parentheses: nothing, or a pair around such a word and another such word
behind it. -/
inductive Nested : List Char → Prop
  | nil : Nested []
  | pair {inside behind : List Char} (hinside : Nested inside) (hbehind : Nested behind) :
      Nested ('(' :: (inside ++ ')' :: behind))

/-- A parenthesis opens at `i` and another one closes at `j`, and the parentheses between them match
one another. -/
def Matches (text : List Char) (i j : Nat) : Prop :=
  ∃ before inside after, text = before ++ '(' :: (inside ++ ')' :: after) ∧
    i = before.length ∧ j = before.length + (inside.length + 1) ∧ Nested (parentheses inside)

/-- How many more parentheses open in a text than close. -/
def surplus (text : List Char) : Int := text.count '(' - text.count ')'

section

variable {u v w text : List Char} {c : Char}

@[simp]
theorem parentheses_nil : parentheses [] = [] := rfl

@[simp]
theorem parentheses_append (u v : List Char) :
    parentheses (u ++ v) = parentheses u ++ parentheses v :=
  List.filter_append u v

@[simp]
theorem parentheses_opening (u : List Char) : parentheses ('(' :: u) = '(' :: parentheses u := rfl

@[simp]
theorem parentheses_closing (u : List Char) : parentheses (')' :: u) = ')' :: parentheses u := rfl

theorem parentheses_other (ho : c ≠ '(') (hc : c ≠ ')') : parentheses [c] = [] := by
  simp [parentheses, isParenthesis, ho, hc]

@[simp]
theorem surplus_nil : surplus [] = 0 := rfl

@[simp]
theorem surplus_append (u v : List Char) : surplus (u ++ v) = surplus u + surplus v := by
  simp only [surplus, List.count_append, Nat.cast_add]
  ring

@[simp]
theorem surplus_opening (u : List Char) : surplus ('(' :: u) = surplus u + 1 := by
  simp [surplus]
  ring

@[simp]
theorem surplus_closing (u : List Char) : surplus (')' :: u) = surplus u - 1 := by
  simp [surplus]
  ring

/-- Only parentheses count. -/
theorem surplus_parentheses (text : List Char) : surplus (parentheses text) = surplus text := by
  simp [surplus, parentheses, isParenthesis, List.count_filter]

/-! ## Words of the grammar -/

theorem Nested.append (hu : Nested u) (hv : Nested v) : Nested (u ++ v) := by
  induction hu with
  | nil => exact hv
  | pair hinside _ _ ih =>
    rw [List.cons_append, List.append_assoc, List.cons_append]
    exact .pair hinside ih

theorem Nested.wrap (hw : Nested w) : Nested ('(' :: (w ++ [')'])) := .pair hw .nil

theorem Nested.surplus_eq (hw : Nested w) : surplus w = 0 := by
  induction hw with
  | nil => rfl
  | pair _ _ ihi ihb => simp [ihi, ihb]

theorem prefix_append_cases {p : List Char} (h : p <+: u ++ v) :
    p <+: u ∨ ∃ q, q <+: v ∧ p = u ++ q := by
  rcases List.prefix_or_prefix_of_prefix h (List.prefix_append u v) with hpu | ⟨q, rfl⟩
  · exact .inl hpu
  · exact .inr ⟨q, (List.prefix_append_right_inj u).1 h, rfl⟩

/-- No beginning of a word has more closing parentheses than opening ones. -/
theorem Nested.surplus_nonneg {p : List Char} (hw : Nested w) (hp : p <+: w) : 0 ≤ surplus p := by
  induction hw generalizing p with
  | nil => rw [List.prefix_nil.1 hp, surplus_nil]
  | @pair inside behind hinside _ ihi ihb =>
    rcases List.prefix_cons_iff.1 hp with rfl | ⟨q, rfl, hq⟩
    · exact le_rfl
    · rw [surplus_opening]
      rcases prefix_append_cases hq with hq | ⟨r, hr, rfl⟩
      · exact (ihi hq).trans (Int.le_add_one le_rfl)
      · rw [surplus_append, hinside.surplus_eq]
        rcases List.prefix_cons_iff.1 hr with rfl | ⟨t, rfl, ht⟩
        · decide
        · rw [surplus_closing]
          have := ihb ht
          omega

theorem surplus_of_nested (h : Nested (parentheses text)) : surplus text = 0 :=
  (surplus_parentheses text).symm.trans h.surplus_eq

theorem surplus_nonneg_of_nested {p : List Char} (h : Nested (parentheses text)) (hp : p <+: text) :
    0 ≤ surplus p := by
  rw [← surplus_parentheses]
  exact h.surplus_nonneg (hp.filter isParenthesis)

/-- In a word, what follows an opening parenthesis closes it, and so is no word. -/
theorem not_nested_behind_opening (h : Nested (parentheses (u ++ '(' :: v))) :
    ¬ Nested (parentheses v) := by
  intro hv
  have hu := surplus_nonneg_of_nested h (List.prefix_append u _)
  have hzero := surplus_of_nested h
  rw [surplus_append, surplus_opening, surplus_of_nested hv] at hzero
  omega

/-- In a word, what comes before a closing parenthesis opens it, and so is no word. -/
theorem not_nested_before_closing (h : Nested (parentheses (u ++ ')' :: v))) :
    ¬ Nested (parentheses u) := by
  intro hu
  have hnonneg := surplus_nonneg_of_nested h (p := u ++ [')']) ⟨v, by simp⟩
  rw [surplus_append, surplus_closing, surplus_nil, surplus_of_nested hu] at hnonneg
  exact absurd hnonneg (by decide)

end

/-! ## At most one match -/

section

theorem eq_of_append_opening {u u' w w' : List Char} (h : u ++ '(' :: w = u' ++ '(' :: w')
    (hw : Nested (parentheses w)) (hw' : Nested (parentheses w')) : u = u' ∧ w = w' := by
  rcases List.append_eq_append_iff.1 h with ⟨_ | ⟨c, x⟩, hu, hx⟩ | ⟨_ | ⟨c, x⟩, hu, hx⟩
  · exact ⟨by simpa using hu.symm, (List.cons.inj hx).2⟩
  · exact absurd hw' (not_nested_behind_opening ((List.cons.inj hx).2 ▸ hw))
  · exact ⟨by simpa using hu, (List.cons.inj hx).2.symm⟩
  · exact absurd hw (not_nested_behind_opening ((List.cons.inj hx).2 ▸ hw'))

theorem eq_of_append_closing {u u' w w' : List Char} (h : w ++ ')' :: u = w' ++ ')' :: u')
    (hw : Nested (parentheses w)) (hw' : Nested (parentheses w')) : w = w' := by
  rcases List.append_eq_append_iff.1 h with ⟨_ | ⟨c, x⟩, hu, hx⟩ | ⟨_ | ⟨c, x⟩, hu, hx⟩
  · simpa using hu.symm
  · obtain rfl : c = ')' := (List.cons.inj hx).1.symm
    exact absurd hw (not_nested_before_closing (hu ▸ hw'))
  · simpa using hu
  · obtain rfl : c = ')' := (List.cons.inj hx).1.symm
    exact absurd hw' (not_nested_before_closing (hu ▸ hw))

variable {text : List Char} {i i' j j' : Nat}

/-- **No closing parenthesis matches two opening ones.** -/
theorem Matches.left_unique (h : Matches text i j) (h' : Matches text i' j) : i = i' := by
  obtain ⟨before, inside, after, htext, rfl, rfl, hinside⟩ := h
  obtain ⟨before', inside', after', htext', rfl, hj, hinside'⟩ := h'
  have hsplit : (before ++ '(' :: inside) ++ ')' :: after =
      (before' ++ '(' :: inside') ++ ')' :: after' := by
    rw [List.append_assoc, List.append_assoc]
    exact htext.symm.trans htext'
  have hread := List.append_inj_left hsplit (by simpa using hj)
  rw [(eq_of_append_opening hread hinside hinside').1]

/-- **No opening parenthesis is matched by two closing ones.** -/
theorem Matches.right_unique (h : Matches text i j) (h' : Matches text i j') : j = j' := by
  obtain ⟨before, inside, after, htext, rfl, rfl, hinside⟩ := h
  obtain ⟨before', inside', after', htext', hi, rfl, hinside'⟩ := h'
  have hrest := List.append_inj_right (htext.symm.trans htext') hi
  rw [hi, eq_of_append_closing (List.cons.inj hrest).2 hinside hinside']

end

/-! ## What has been read -/

/-- The text has `depth` parentheses open, with words of the grammar between them. -/
inductive Leaves : Nat → List Char → Prop
  | closed {w : List Char} (h : Nested (parentheses w)) : Leaves 0 w
  | opened {depth : Nat} {text w : List Char} (h : Leaves depth text)
      (hw : Nested (parentheses w)) : Leaves (depth + 1) (text ++ '(' :: w)

/-- The surpluses of the beginnings of a text. -/
def heights (text : List Char) : Set Int := {e | ∃ p, p <+: text ∧ surplus p = e}

/-- What is known of a text that has been read with `depth` parentheses open and no more than `m`
open at any time: each closing parenthesis has found its match. -/
structure Counted (text : List Char) (depth m : Nat) : Prop where
  leaves : Leaves depth text
  matched : ∀ read after, text = read ++ ')' :: after →
    ∃ before inside, read = before ++ '(' :: inside ∧ Nested (parentheses inside)
  greatest : IsGreatest (heights text) m

section

variable {text v : List Char} {c : Char} {depth m : Nat}

theorem Leaves.append (h : Leaves depth text) (hv : Nested (parentheses v)) :
    Leaves depth (text ++ v) := by
  cases h with
  | closed hw =>
    refine .closed ?_
    rw [parentheses_append]
    exact hw.append hv
  | opened h hw =>
    rw [List.append_assoc, List.cons_append]
    refine .opened h ?_
    rw [parentheses_append]
    exact hw.append hv

theorem Leaves.surplus_eq (h : Leaves depth text) : surplus text = depth := by
  induction h with
  | closed h => exact surplus_of_nested h
  | opened _ hw ih => simp [ih, surplus_of_nested hw]

theorem heights_concat (text : List Char) (c : Char) :
    heights (text ++ [c]) = insert (surplus (text ++ [c])) (heights text) := by
  ext e
  simp only [heights, List.prefix_concat_iff, or_and_right, exists_or, exists_eq_left,
    Set.mem_ofPred_eq, Set.mem_insert_iff]
  exact or_congr_left eq_comm

theorem Counted.nil : Counted [] 0 0 where
  leaves := .closed .nil
  matched read after h := absurd h (by simp)
  greatest := by
    refine ⟨⟨[], List.prefix_rfl, rfl⟩, ?_⟩
    rintro e ⟨p, hp, rfl⟩
    rw [List.prefix_nil.1 hp]
    exact le_rfl

theorem Counted.depth_le (h : Counted text depth m) : depth ≤ m :=
  Int.ofNat_le.1 (h.greatest.2 ⟨text, List.prefix_rfl, h.leaves.surplus_eq⟩)

/-- What is known when one more character has been read. -/
theorem Counted.concat {depth' : Nat} (h : Counted text depth m)
    (hleaves : Leaves depth' (text ++ [c]))
    (hclosing : c = ')' →
      ∃ before inside, text = before ++ '(' :: inside ∧ Nested (parentheses inside)) :
    Counted (text ++ [c]) depth' (max m depth') where
  leaves := hleaves
  matched read after hsplit := by
    rcases List.eq_nil_or_concat after with rfl | ⟨after, d, rfl⟩
    · obtain ⟨rfl, hc⟩ := List.append_inj' hsplit rfl
      exact hclosing (List.cons.inj hc).1
    · have hlast : text ++ [c] = (read ++ ')' :: after) ++ [d] := by simpa using hsplit
      exact h.matched read after (List.append_inj' hlast rfl).1
  greatest := by
    rw [heights_concat, hleaves.surplus_eq, max_comm, Nat.cast_max]
    exact h.greatest.insert _

/-- **One character.**  Either it is a closing parenthesis and none is open, or the count goes on
with what is known of the text up to there. -/
theorem Counted.step (h : Counted text depth m) (c : Char) (rest : List Char) :
    (c = ')' ∧ depth = 0) ∨ ∃ depth' m', Counted (text ++ [c]) depth' m' ∧
      scan depth m text.length (c :: rest) = scan depth' m' (text ++ [c]).length rest := by
  rw [List.length_append, List.length_singleton]
  by_cases ho : c = '('
  · subst ho
    exact .inr ⟨depth + 1, max m (depth + 1),
      h.concat (.opened h.leaves .nil) (absurd · (by decide)), scan_opening _ _ _ _⟩
  · by_cases hc : c = ')'
    · subst hc
      cases hleaves : h.leaves with
      | closed => exact .inl ⟨rfl, rfl⟩
      | @opened depth before inside hbefore hinside =>
        have hwrap : Nested (parentheses ('(' :: (inside ++ [')']))) := by
          simpa using hinside.wrap
        have hle : depth ≤ m := (Nat.le_succ depth).trans h.depth_le
        have hcounted := h.concat (c := ')')
          (by simpa using hbefore.append hwrap) fun _ => ⟨before, inside, rfl, hinside⟩
        rw [max_eq_left hle] at hcounted
        exact .inr ⟨depth, m, hcounted, scan_closing _ _ _ _⟩
    · have hcounted := h.concat (h.leaves.append (v := [c]) (by
        rw [parentheses_other ho hc]
        exact .nil)) fun heq => absurd heq hc
      rw [max_eq_left h.depth_le] at hcounted
      exact .inr ⟨depth, m, hcounted, scan_other ho hc _ _ _ _⟩

/-- **The rest of the text.**  It is read to the end, or to a closing parenthesis at which none is
open. -/
theorem Counted.run (h : Counted text depth m) (rest : List Char) :
    (∃ depth' m', scan depth m text.length rest = ⟨m', depth', none⟩ ∧
      Counted (text ++ rest) depth' m') ∨
    ∃ read after m', rest = read ++ ')' :: after ∧
      scan depth m text.length rest = ⟨m', 0, some (text ++ read).length⟩ ∧
      Counted (text ++ read) 0 m' := by
  induction rest generalizing text depth m with
  | nil => exact .inl ⟨depth, m, rfl, by rwa [List.append_nil]⟩
  | cons c rest ih =>
    rcases h.step c rest with ⟨rfl, rfl⟩ | ⟨depth', m', hcounted, hscan⟩
    · exact .inr ⟨[], rest, m, rfl, by rw [List.append_nil]; rfl, by rwa [List.append_nil]⟩
    · rw [hscan, List.append_cons text c rest]
      rcases ih hcounted with hend | ⟨read, after, m', rfl, hstray, hread⟩
      · exact .inl hend
      · rw [← List.append_cons] at hstray hread
        exact .inr ⟨c :: read, after, m', rfl, hstray, hread⟩

/-! ## Where the parentheses are -/

/-- A character is at a position if just so many come before it. -/
theorem getElem?_eq_some_iff_split {i : Nat} : text[i]? = some c ↔
    ∃ read after, text = read ++ c :: after ∧ i = read.length := by
  constructor
  · intro h
    obtain ⟨hi, rfl⟩ := List.getElem?_eq_some_iff.1 h
    refine ⟨text.take i, text.drop (i + 1), ?_, by rw [List.length_take, min_eq_left hi.le]⟩
    rw [← List.drop_eq_getElem_cons, List.take_append_drop]
  · rintro ⟨read, after, rfl, rfl⟩
    rw [List.getElem?_append_right le_rfl, Nat.sub_self, List.getElem?_cons_zero]

theorem Matches.opening {i j : Nat} (h : Matches text i j) : text[i]? = some '(' := by
  obtain ⟨before, inside, after, rfl, rfl, rfl, -⟩ := h
  exact getElem?_eq_some_iff_split.2 ⟨before, _, rfl, rfl⟩

theorem Matches.closing {i j : Nat} (h : Matches text i j) : text[j]? = some ')' := by
  obtain ⟨before, inside, after, rfl, rfl, rfl, -⟩ := h
  exact getElem?_eq_some_iff_split.2 ⟨before ++ '(' :: inside, after, by simp, by simp⟩

/-- **In what has been read, all that closes has a match.** -/
theorem Counted.exists_matches {j : Nat} (h : Counted text depth m) (hj : text[j]? = some ')')
    (rest : List Char) : ∃ i, Matches (text ++ rest) i j := by
  obtain ⟨read, after, rfl, rfl⟩ := getElem?_eq_some_iff_split.1 hj
  obtain ⟨before, inside, rfl, hinside⟩ := h.matched read after rfl
  exact ⟨before.length, before, inside, after ++ rest, by simp, rfl, by simp, hinside⟩

theorem Leaves.nested (h : Leaves 0 text) : Nested (parentheses text) := by
  cases h
  assumption

/-- **Where nothing is open, what closes has none.** -/
theorem Counted.not_matches (h : Counted text 0 m) (after : List Char) (i : Nat) :
    ¬ Matches (text ++ ')' :: after) i text.length := by
  rintro ⟨before, inside, after', hsplit, rfl, hlength, hinside⟩
  have hread : text ++ ')' :: after = (before ++ '(' :: inside) ++ ')' :: after' := by
    rw [hsplit, List.append_assoc, List.cons_append]
  have htext := List.append_inj_left hread (by simpa using hlength)
  exact not_nested_behind_opening (htext ▸ h.leaves.nested) hinside

/-- So the place where the count stops is the first one without a match. -/
theorem Counted.isLeast (h : Counted text 0 m) (after : List Char) :
    IsLeast {j | (text ++ ')' :: after)[j]? = some ')' ∧
      ∀ i, ¬ Matches (text ++ ')' :: after) i j} text.length := by
  refine ⟨⟨getElem?_eq_some_iff_split.2 ⟨text, after, rfl, rfl⟩, h.not_matches after⟩, ?_⟩
  rintro j ⟨hj, hnone⟩
  by_contra hlt
  rw [List.getElem?_append_left (not_le.1 hlt)] at hj
  obtain ⟨i, hi⟩ := h.exists_matches hj (')' :: after)
  exact hnone i hi

/-! ## How many are open -/

theorem getElem?_concat_eq_some_iff {d : Char} {i : Nat} :
    (text ++ [d])[i]? = some c ↔ text[i]? = some c ∨ (d = c ∧ i = text.length) := by
  rw [List.getElem?_append]
  split
  · next h => exact (or_iff_left fun heq => h.ne heq.2).symm
  · next h =>
    rw [List.getElem?_eq_none (not_lt.1 h), List.getElem?_singleton]
    split <;> grind

theorem encard_positions (text : List Char) (c : Char) :
    {i : Nat | text[i]? = some c}.encard = text.count c := by
  induction text using List.reverseRecOn with
  | nil => simp
  | append_singleton text d ih =>
    simp only [getElem?_concat_eq_some_iff]
    by_cases hd : d = c
    · have hset : {i : Nat | text[i]? = some c ∨ (d = c ∧ i = text.length)} =
          insert text.length {i : Nat | text[i]? = some c} := by
        ext i
        simp [hd, or_comm]
      rw [hset, Set.encard_insert_of_notMem (by simp), ih, hd, List.count_append,
        List.count_singleton_self, Nat.cast_add, Nat.cast_one]
    · simp only [hd, false_and, or_false]
      rw [ih, List.count_append, List.count_singleton, if_neg (by simpa using hd), Nat.add_zero]

/-- **If all that closes has a match, then what has no match is what is open.**  Each closing
parenthesis has one opening one to itself, and the others are as many as the surplus. -/
theorem Counted.encard_unmatched (h : Counted text depth m) :
    {i | text[i]? = some '(' ∧ ∀ j, ¬ Matches text i j}.encard = depth := by
  have hmatch : ∀ j, text[j]? = some ')' → ∃ i, Matches text i j := fun j hj => by
    simpa using h.exists_matches hj []
  choose! opens hopens using hmatch
  have hopening : {i : Nat | text[i]? = some '('} =
      opens '' {j : Nat | text[j]? = some ')'} ∪
        {i | text[i]? = some '(' ∧ ∀ j, ¬ Matches text i j} := by
    ext i
    constructor
    · intro hi
      by_cases hj : ∃ j, Matches text i j
      · obtain ⟨j, hj⟩ := hj
        exact .inl ⟨j, hj.closing, (hopens j hj.closing).left_unique hj⟩
      · exact .inr ⟨hi, not_exists.1 hj⟩
    · rintro (⟨j, hj, rfl⟩ | hi)
      · exact (hopens j hj).opening
      · exact hi.1
  have hdisjoint : Disjoint (opens '' {j : Nat | text[j]? = some ')'})
      {i | text[i]? = some '(' ∧ ∀ j, ¬ Matches text i j} := by
    rw [Set.disjoint_left]
    rintro _ ⟨j, hj, rfl⟩ hi
    exact hi.2 j (hopens j hj)
  have hinjective : Set.InjOn opens {j : Nat | text[j]? = some ')'} := fun j hj j' hj' heq =>
    (hopens j hj).right_unique (heq ▸ hopens j' hj')
  have hcount : text.count '(' = text.count ')' + depth := by
    have hsurplus := h.leaves.surplus_eq
    rw [surplus] at hsurplus
    omega
  have hall := congrArg Set.encard hopening
  rw [Set.encard_union_eq hdisjoint, hinjective.encard_image, encard_positions, encard_positions,
    hcount, Nat.cast_add] at hall
  exact (ENat.add_right_injective_of_ne_top (ENat.natCast_ne_top _) hall).symm

end

/-! ## The check -/

/-- What the count looks at: the text, or what there is of it up to a stray closing parenthesis. -/
def scanned (text : List Char) (stray : Option Nat) : List Char :=
  match stray with
  | none => text
  | some j => text.take (j + 1)

/-- A text is read to the end, or to a closing parenthesis at which none is open. -/
theorem ofText_cases (text : List Char) :
    (∃ depth m, ofText text = ⟨m, depth, none⟩ ∧ Counted text depth m) ∨
      ∃ read after m, text = read ++ ')' :: after ∧ ofText text = ⟨m, 0, some read.length⟩ ∧
        Counted read 0 m :=
  Counted.nil.run text

theorem isBalanced_iff_nested (text : List Char) :
    (ofText text).isBalanced = true ↔ Nested (parentheses text) := by
  rcases ofText_cases text with ⟨depth, m, hof, h⟩ | ⟨read, after, m, rfl, hof, h⟩
  · have hdepth : (ofText text).isBalanced = true ↔ depth = 0 := by simp [hof, isBalanced]
    rw [hdepth]
    constructor
    · rintro rfl
      exact h.leaves.nested
    · intro hnested
      exact Int.ofNat_eq_zero.1 (h.leaves.surplus_eq.symm.trans (surplus_of_nested hnested))
  · have hfalse : (ofText (read ++ ')' :: after)).isBalanced = false := by
      rw [hof]
      rfl
    rw [hfalse]
    exact iff_of_false nofun fun hnested => not_nested_before_closing hnested h.leaves.nested

theorem stray_eq_none_iff (text : List Char) :
    (ofText text).stray = none ↔ ∀ j, text[j]? = some ')' → ∃ i, Matches text i j := by
  rcases ofText_cases text with ⟨depth, m, hof, h⟩ | ⟨read, after, m, rfl, hof, h⟩
  · rw [hof]
    exact iff_of_true rfl fun j hj => by simpa using h.exists_matches hj []
  · rw [hof]
    refine iff_of_false nofun fun hall => ?_
    obtain ⟨i, hi⟩ := hall _ (h.isLeast after).1.1
    exact h.not_matches after i hi

theorem stray_eq_some_iff (text : List Char) (j : Nat) : (ofText text).stray = some j ↔
    IsLeast {j | text[j]? = some ')' ∧ ∀ i, ¬ Matches text i j} j := by
  rcases ofText_cases text with ⟨depth, m, hof, h⟩ | ⟨read, after, m, rfl, hof, h⟩
  · have hnone : (ofText text).stray = none := by rw [hof]
    rw [hnone]
    refine iff_of_false nofun fun hleast => ?_
    obtain ⟨i, hi⟩ := (stray_eq_none_iff text).1 hnone j hleast.1.1
    exact hleast.1.2 i hi
  · rw [hof, Option.some_inj]
    constructor
    · rintro rfl
      exact h.isLeast after
    · exact fun hleast => (h.isLeast after).unique hleast

theorem unclosed_of_stray_eq_none {text : List Char} (hstray : (ofText text).stray = none) :
    {i | text[i]? = some '(' ∧ ∀ j, ¬ Matches text i j}.encard = (ofText text).unclosed := by
  rcases ofText_cases text with ⟨depth, m, hof, h⟩ | ⟨read, after, m, rfl, hof, h⟩
  · rw [hof]
    exact h.encard_unmatched
  · rw [hof] at hstray
    cases hstray

theorem maxDepth_isGreatest (text : List Char) :
    IsGreatest (heights (scanned text (ofText text).stray)) (ofText text).maxDepth := by
  rcases ofText_cases text with ⟨depth, m, hof, h⟩ | ⟨read, after, m, rfl, hof, h⟩
  · rw [hof]
    exact h.greatest
  · -- the stray parenthesis itself takes the surplus below zero, where it is no greatest one
    have hscanned : scanned (read ++ ')' :: after) (some read.length) = read ++ [')'] := by
      simp [scanned, List.take_append]
    have hsurplus : surplus (read ++ [')']) = -1 := by simp [h.leaves.surplus_eq]
    have hmax : max (-1) (m : Int) = m := max_eq_right (by omega)
    rw [hof, hscanned, heights_concat, hsurplus, ← hmax]
    exact h.greatest.insert _

end Balance

/-- **The check on parentheses.**  It has an outcome for every text, and its report shows the
figures of the count.  It passes just for the words of matching parentheses, whatever stands between
them; it names the first closing parenthesis that has no match before it; if there is none, it tells
how many opening ones have none; and the depth is the greatest surplus that what it has looked at
begins with. -/
theorem balance_characterised (s : String) :
    ∃ b, Balance.ofValue (.text s) = .ok b ∧
      ((Balance.report b).get? "passed" = some (.bool b.isBalanced) ∧
        (Balance.report b).get? "details" = some (.record [("max_depth", .int b.maxDepth),
          ("unclosed", .int b.unclosed), ("first_unmatched_close", positionValue b.stray)])) ∧
      (b.isBalanced = true ↔ Balance.Nested (Balance.parentheses s.toList)) ∧
      (b.stray = none ↔ ∀ j, s.toList[j]? = some ')' → ∃ i, Balance.Matches s.toList i j) ∧
      (∀ j, b.stray = some j ↔
        IsLeast {j | s.toList[j]? = some ')' ∧ ∀ i, ¬ Balance.Matches s.toList i j} j) ∧
      (b.stray = none →
        {i | s.toList[i]? = some '(' ∧ ∀ j, ¬ Balance.Matches s.toList i j}.encard = b.unclosed) ∧
      IsGreatest {e : Int | ∃ p, p <+: Balance.scanned s.toList b.stray ∧ Balance.surplus p = e}
        b.maxDepth := by
  refine ⟨_, Balance.ofValue_text s, ⟨rfl, ?_⟩, Balance.isBalanced_iff_nested s.toList,
    Balance.stray_eq_none_iff s.toList, Balance.stray_eq_some_iff s.toList,
    Balance.unclosed_of_stray_eq_none, Balance.maxDepth_isGreatest s.toList⟩
  cases hstray : (Balance.ofText s.toList).stray <;> rw [Balance.report, hstray] <;> rfl

end SpaceCurve
