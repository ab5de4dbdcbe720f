import SpaceCurve.Proofs.Numerals
import SpaceCurve.Proofs.Substitution
import SpaceCurve.Proofs.Walking

/-!
# What a tree keeps of its text

A tree has no parentheses and no commas, and the signs of its operators stand in front of both
operands when it is walked.  Everything else of the text is still there, in its order.

## What is here

* `Mentions l node` — the lexeme is a number or a name, and the node is what it stands for: a number
  with the value of the text, the parameter, the constant, or a call of the function.
* `Tells lexemes nodes` — the numbers and names among the lexemes are mentioned by those among the
  nodes one by one, and there are as many operators as operations.  This is what the rules of the
  grammar preserve (`tells_of_derives`): the lexemes of a phrase are put together from those of its
  parts, and so are the nodes, where only an operator changes its place.
* `firstUses names` — the names in a list, each once.  They are in the order in which they come up in
  the list (`pairwise_firstUses`), and this is how `Tree.functions` lists functions.
* `parse_mentions` — the result for a text that parses, with the positions of its tokens.
-/

set_option autoImplicit false

namespace SpaceCurve

/-! ## Numbers and names -/

/-- Whether the lexeme is a number or a name. -/
def Lexeme.isMention : Lexeme → Bool
  | number _ => true
  | symbol _ => true
  | _ => false

/-- Whether the lexeme is an operator. -/
def Lexeme.isOperator : Lexeme → Bool
  | operator _ => true
  | _ => false

/-- Whether the node is a number, the parameter, a constant or a call. -/
def Tree.isMention : Tree → Bool
  | number _ => true
  | parameter _ => true
  | constant _ => true
  | call _ _ => true
  | _ => false

/-- Whether the node has an operator with one or two operands. -/
def Tree.isOperation : Tree → Bool
  | binary _ _ _ => true
  | unary _ _ => true
  | _ => false

/-- The node is what the number or the name stands for. -/
inductive Mentions : Lexeme → Tree → Prop
  | number {text : List Char} {x : Float} (h : Numeral.float? (String.ofList text) = some x) :
      Mentions (.number text) (.number x)
  | parameter : Mentions (.symbol .parameter) (.parameter Symbol.parameterName)
  | constant (c : Constant) : Mentions (.symbol (.constant c)) (.constant c.spelling)
  | call (f : Func) (args : List Tree) : Mentions (.symbol (.function f)) (.call f.spelling args)

/-- The numbers and names among the lexemes are those of the nodes, one by one, if they are spelled
as they should be, and there are as many operators as operations. -/
structure Tells (lexemes : List Lexeme) (nodes : List Tree) : Prop where
  mentions : List.Forall₂ (fun l node => (∃ run, Lexer.Spells l run) → Mentions l node)
    (lexemes.filter Lexeme.isMention) (nodes.filter Tree.isMention)
  operators : lexemes.countP Lexeme.isOperator = nodes.countP Tree.isOperation

namespace Tells

variable {l l' : List Lexeme} {n n' : List Tree}

theorem append (h : Tells l n) (h' : Tells l' n') : Tells (l ++ l') (n ++ n') where
  mentions := by
    rw [List.filter_append, List.filter_append]
    exact List.rel_append h.mentions h'.mentions
  operators := by rw [List.countP_append, List.countP_append, h.operators, h'.operators]

/-- A number or a name and its node. -/
theorem mention {x : Lexeme} {node : Tree}
    (h : (∃ run, Lexer.Spells x run) → Mentions x node) (hx : x.isMention = true)
    (hnode : node.isMention = true) : Tells [x] [node] where
  mentions := by
    rw [List.filter_cons_of_pos hx, List.filter_cons_of_pos hnode]
    exact .cons h .nil
  operators := by
    cases x <;> cases hx <;> cases node <;> cases hnode <;> rfl

/-- Parentheses and commas tell nothing. -/
theorem punctuation {x : Lexeme} (hx : x.isMention = false) (hop : x.isOperator = false) :
    Tells [x] [] where
  mentions := by
    rw [List.filter_cons_of_neg (by simp [hx])]
    exact .nil
  operators := by simp [hop]

/-- An operator stands between its operands, and the node in front of them. -/
theorem operation (h : Tells l n) (h' : Tells l' n') (o : Operator) {node : Tree}
    (hnode : node.isOperation = true) : Tells (l ++ .operator o :: l') (node :: (n ++ n')) where
  mentions := by
    have hmention : ¬ node.isMention = true := by
      cases node <;> first | exact Bool.false_ne_true | cases hnode
    rw [List.filter_append, List.filter_cons_of_neg Bool.false_ne_true,
      List.filter_cons_of_neg hmention, List.filter_append]
    exact List.rel_append h.mentions h'.mentions
  operators := by
    rw [List.countP_append, List.countP_cons_of_pos rfl, List.countP_cons_of_pos hnode,
      List.countP_append, h.operators, h'.operators, Nat.add_assoc]

/-- A lexeme that mentions a call may as well mention a call with other arguments. -/
theorem changeArgs {name : String} {args : List Tree} (h : Tells l (.call name args :: n))
    (args' : List Tree) : Tells l (.call name args' :: n) where
  mentions := by
    have hmentions := h.mentions
    rw [List.filter_cons_of_pos rfl, List.forall₂_cons_right_iff] at hmentions
    obtain ⟨x, rest, hx, hrest, hl⟩ := hmentions
    rw [hl, List.filter_cons_of_pos rfl]
    refine .cons (fun hrun => ?_) hrest
    cases hx hrun with
    | call f => exact .call f args'
  operators := h.operators

end Tells

/-! ## Trees of the grammar -/

namespace Tree

theorem walk_binary (op : String) (a b : Tree) :
    (binary op a b).walk = binary op a b :: (a.walk ++ b.walk) := by
  rw [walk_eq, children, List.flatMap_cons, List.flatMap_singleton]

theorem walk_unary (op : String) (a : Tree) : (unary op a).walk = unary op a :: a.walk := by
  rw [walk_eq, children, List.flatMap_singleton]

theorem walk_call (name : String) (args : List Tree) :
    (call name args).walk = call name args :: args.flatMap walk := by
  rw [walk_eq, children]

end Tree

/-- A number token has the value of its text. -/
theorem mentions_number {text : List Char} (h : ∃ run, Lexer.Spells (.number text) run) :
    Mentions (.number text) (.number (Numeral.decimal text)) := by
  obtain ⟨run, hrun⟩ := h
  cases hrun with
  | number digits point ne_nil ne_point =>
    exact .number (Numeral.float?_eq_decimal (.number digits point ne_nil ne_point))

/-- **The numbers, names and operators of a phrase are those of its tree.** -/
theorem tells_of_derives {p : Phrase} {d : Nat} {w : List Enclosed} {t : Tree}
    (h : Derives p d w t) : Tells (w.map Enclosed.lexeme) t.walk := by
  have hopening : Tells [.opening] [] := .punctuation rfl rfl
  have hclosing : Tells [.closing] [] := .punctuation rfl rfl
  induction h with
  | ofTerm _ ih => exact ih
  | ofUnary _ ih => exact ih
  | ofPower _ ih => exact ih
  | ofPrimary _ ih => exact ih
  | sum _ _ _ ihl ihr =>
    rw [List.map_append, Tree.walk_binary]
    exact ihl.operation ihr _ rfl
  | product _ _ _ ihl ihr =>
    rw [List.map_append, Tree.walk_binary]
    exact ihl.operation ihr _ rfl
  | raised _ _ ihl ihr =>
    rw [List.map_append, Tree.walk_binary]
    exact ihl.operation ihr _ rfl
  | minus _ ih =>
    rw [Tree.walk_unary]
    exact (⟨.nil, rfl⟩ : Tells [] []).operation ih .sub rfl
  | number d text =>
    rw [Tree.walk_eq]
    exact .mention mentions_number rfl rfl
  | parameter =>
    rw [Tree.walk_eq]
    exact .mention (fun _ => .parameter) rfl rfl
  | constant _ c =>
    rw [Tree.walk_eq]
    exact .mention (fun _ => .constant c) rfl rfl
  | group _ ih =>
    have htells := (hopening.append ih).append hclosing
    rw [List.append_nil] at htells
    rw [List.map_append]
    exact htells
  | firstArgument f _ ih =>
    rw [Tree.walk_call, List.flatMap_singleton]
    exact (Tells.mention (fun _ => .call f _) rfl rfl).append (hopening.append ih)
  | nextArgument _ _ ihl ihr =>
    rw [Tree.walk_call] at ihl
    rw [List.map_append, Tree.walk_call, List.flatMap_append, List.flatMap_singleton]
    exact (ihl.changeArgs _).append ((Tells.punctuation rfl rfl : Tells [.comma] []).append ihr)
  | called _ _ ih =>
    have htells := ih.append hclosing
    rw [List.append_nil] at htells
    rw [List.map_append]
    exact htells

/-! ## Names in the order of first use -/

/-- A list of names with one more at its end, unless it is there. -/
def noteName (seen : List String) (name : String) : List String :=
  if seen.contains name then seen else seen ++ [name]

/-- The names in a list, each once, as they come up. -/
def firstUses (names : List String) : List String := names.foldl noteName []

theorem firstUses_concat (names : List String) (name : String) :
    firstUses (names ++ [name]) = noteName (firstUses names) name := by
  rw [firstUses, List.foldl_append]
  rfl

theorem mem_firstUses_iff {names : List String} {a : String} : a ∈ firstUses names ↔ a ∈ names := by
  induction names using List.reverseRecOn with
  | nil => rfl
  | append_singleton names name ih =>
    rw [firstUses_concat, noteName, List.mem_append, List.mem_singleton]
    split
    · next hseen =>
      rw [ih]
      refine (or_iff_left_of_imp ?_).symm
      rintro rfl
      exact ih.1 (List.contains_iff_mem.1 hseen)
    · rw [List.mem_append, List.mem_singleton, ih]

theorem nodup_firstUses (names : List String) : (firstUses names).Nodup := by
  induction names using List.reverseRecOn with
  | nil => exact .nil
  | append_singleton names name ih =>
    rw [firstUses_concat, noteName]
    split
    · exact ih
    · next hnew =>
      rw [List.contains_iff_mem] at hnew
      rw [← List.concat_eq_append]
      exact ih.concat hnew

/-- **Of two first uses the one before is found where the other one has not come up yet.** -/
theorem pairwise_firstUses (names : List String) :
    (firstUses names).Pairwise fun a b =>
      a ≠ b ∧ ∃ before after, names = before ++ a :: after ∧ b ∉ before := by
  induction names using List.reverseRecOn with
  | nil => exact .nil
  | append_singleton names name ih =>
    have hlonger := ih.imp fun {a b} ⟨hne, before, after, hnames, hb⟩ =>
      (⟨hne, before, after ++ [name], by rw [hnames]; simp, hb⟩ :
        a ≠ b ∧ ∃ before after, names ++ [name] = before ++ a :: after ∧ b ∉ before)
    rw [firstUses_concat, noteName]
    split
    · exact hlonger
    · next hnew =>
      rw [List.contains_iff_mem, mem_firstUses_iff] at hnew
      refine List.pairwise_append.2 ⟨hlonger, List.pairwise_singleton _ _, fun a ha b hb => ?_⟩
      obtain rfl := List.mem_singleton.1 hb
      have hmem := mem_firstUses_iff.1 ha
      obtain ⟨before, after, rfl⟩ := List.append_of_mem hmem
      refine ⟨fun hab => hnew (hab ▸ hmem), before, after ++ [b], by simp, fun hb => hnew ?_⟩
      exact List.mem_append_left _ hb

/-- The name of the function, if the lexeme is one. -/
def Lexeme.functionName? : Lexeme → Option String
  | symbol (.function f) => some f.spelling
  | _ => none

/-- The name of the function that the node calls, if it is a call. -/
def Tree.callName? : Tree → Option String
  | call name _ => some name
  | _ => none

/-- The functions of a tree are the first uses of their names in it. -/
theorem Tree.functions_eq (t : Tree) : t.functions = firstUses (t.walk.filterMap callName?) := by
  rw [functions, firstUses, List.foldl_filterMap]
  congr
  funext seen node
  cases node <;> rfl

/-- Where numbers and names are mentioned one by one, the names of functions are those of calls. -/
theorem filterMap_functionName {lexemes : List Lexeme} {nodes : List Tree}
    (h : List.Forall₂ Mentions (lexemes.filter Lexeme.isMention) (nodes.filter Tree.isMention)) :
    lexemes.filterMap Lexeme.functionName? = nodes.filterMap Tree.callName? := by
  have hlexemes : (lexemes.filter Lexeme.isMention).filterMap Lexeme.functionName? =
      lexemes.filterMap Lexeme.functionName? := by
    rw [List.filterMap_filter]
    exact List.filterMap_congr fun l _ => by cases l <;> rfl
  have hnodes : (nodes.filter Tree.isMention).filterMap Tree.callName? =
      nodes.filterMap Tree.callName? := by
    rw [List.filterMap_filter]
    exact List.filterMap_congr fun node _ => by cases node <;> rfl
  rw [← hlexemes, ← hnodes]
  generalize lexemes.filter Lexeme.isMention = ls, nodes.filter Tree.isMention = ns at h
  induction h with
  | nil => rfl
  | @cons l node _ _ hmentions _ ih =>
    have hname : l.functionName? = node.callName? := by cases hmentions <;> rfl
    rw [List.filterMap_cons, List.filterMap_cons, hname, ih]

/-! ## Texts that parse -/

/-- The token is the name of the function with this spelling. -/
def Token.Names (t : Token) (name : String) : Prop := t.lexeme.functionName? = some name

/-- A name that comes up where another one has not come up yet is a token before all tokens of the
other one. -/
theorem exists_token_before {tokens : List Token} {a b : String} {before after : List String}
    (hincreasing : tokens.Pairwise fun t u => t.position < u.position) (hne : a ≠ b)
    (hsplit : tokens.filterMap (Lexeme.functionName? ∘ Token.lexeme) = before ++ a :: after)
    (hb : b ∉ before) :
    ∃ t ∈ tokens, t.Names a ∧ ∀ u ∈ tokens, u.Names b → t.position < u.position := by
  obtain ⟨front, rest, rfl, rfl, hrest⟩ := List.filterMap_eq_append_iff.1 hsplit
  obtain ⟨silent, t, back, rfl, hsilent, ht, -⟩ := List.filterMap_eq_cons_iff.1 hrest
  refine ⟨t, by simp, ht, fun u hu hname => ?_⟩
  simp only [List.mem_append, List.mem_cons] at hu
  rcases hu with hu | hu | rfl | hu
  · exact (hb (List.mem_filterMap.2 ⟨u, hu, hname⟩)).elim
  · exact absurd ((hsilent u hu).symm.trans hname) (by simp)
  · exact absurd (Option.some.inj (ht.symm.trans hname)) hne
  · have hlater := (List.pairwise_append.1 (List.pairwise_append.1 hincreasing).2.1).2.1
    exact List.rel_of_pairwise_cons hlater hu

/-- **A tree loses, duplicates and reorders nothing.**  Take a text that parses.  The numbers and
names among its tokens, from left to right, and the numbers, parameters, constants and calls among
the nodes of its tree, in the order of the walk, are the same one by one; and there are as many
operators among the tokens as operations among the nodes.  So the functions of the equation are those
whose names stand in the text, each once, and of two of them the first one stands somewhere before
all places of the other one. -/
theorem parse_mentions {s : String} {e : Equation} (h : Equation.parse (.text s) = .ok e) :
    ∃ tokens, tokenize s.toList = .ok tokens ∧
      List.Forall₂ (fun (t : Token) node => Mentions t.lexeme node)
        (tokens.filter fun t => t.lexeme.isMention) (e.root.walk.filter Tree.isMention) ∧
      (tokens.countP fun t => t.lexeme.isOperator) = e.root.walk.countP Tree.isOperation ∧
      e.root.functions.Nodup ∧
      (∀ name, name ∈ e.root.functions ↔ ∃ t ∈ tokens, t.Names name) ∧
      e.root.functions.Pairwise fun a b =>
        ∃ t ∈ tokens, t.Names a ∧ ∀ u ∈ tokens, u.Names b → t.position < u.position := by
  obtain ⟨tokens, w, hreading⟩ := exists_reading h
  have hlaid := (Lexer.tokenize_eq_ok_iff.1 hreading.tokens_eq).laidOut
  have htells := tells_of_derives hreading.derives
  rw [hreading.lexemes_eq] at htells
  have hmentions : List.Forall₂ Mentions ((tokens.map Token.lexeme).filter Lexeme.isMention)
      (e.root.walk.filter Tree.isMention) := by
    refine ((List.forall₂_and_left _ _).2 ⟨fun l hl => ?_, htells.mentions⟩).imp
      fun l node hboth => hboth.2 hboth.1
    obtain ⟨t, ht, rfl⟩ := List.mem_map.1 (List.mem_filter.1 hl).1
    obtain ⟨run, ⟨hspells, -⟩, -⟩ := hlaid.stands t ht
    exact ⟨run, hspells⟩
  have hnames := filterMap_functionName hmentions
  rw [List.filterMap_map] at hnames
  refine ⟨tokens, hreading.tokens_eq, ?_, ?_, ?_, fun name => ?_, ?_⟩
  · rwa [List.filter_map, List.forall₂_map_left_iff] at hmentions
  · have hoperators := htells.operators
    rwa [List.countP_map] at hoperators
  · rw [Tree.functions_eq]
    exact nodup_firstUses _
  · rw [Tree.functions_eq, mem_firstUses_iff, ← hnames, List.mem_filterMap]
    rfl
  · rw [Tree.functions_eq, ← hnames]
    exact (pairwise_firstUses _).imp fun ⟨hne, _, _, hsplit, hb⟩ =>
      exists_token_before hlaid.increasing hne hsplit hb

/-- A text with a function that is called twice. -/
theorem parse_mentions_twice :
    ∃ e tokens, Equation.parse (.text "sin(t)+cos(2)*sin(-t)") = .ok e ∧
      tokenize "sin(t)+cos(2)*sin(-t)".toList = .ok tokens ∧
      (tokens.countP fun t => t.lexeme.isOperator) = e.root.walk.countP Tree.isOperation ∧
      e.root.functions = ["sin", "cos"] ∧
      ∃ t ∈ tokens, t.Names "sin" ∧ ∀ u ∈ tokens, u.Names "cos" → t.position < u.position := by
  have hfunctions : (Equation.parse (.text "sin(t)+cos(2)*sin(-t)")).map
      (fun e => e.root.functions) = .ok ["sin", "cos"] := by
    decide +kernel
  obtain ⟨e, he, hfunctions⟩ := map_eq_ok_iff.1 hfunctions
  obtain ⟨tokens, htokens, -, hoperators, -, -, horder⟩ := parse_mentions he
  rw [hfunctions] at horder
  exact ⟨e, tokens, he, htokens, hoperators, hfunctions,
    List.rel_of_pairwise_cons horder (List.mem_singleton_self _)⟩

end SpaceCurve
