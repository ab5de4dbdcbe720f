import SpaceCurve.Proofs.Independence
import SpaceCurve.Proofs.Positions
import SpaceCurve.Proofs.Spacing

/-!
# Complaints about unbalanced parentheses

Validation counts the parentheses of a source before it parses it, so one would expect that a source
which has passed the count is not turned away for its parentheses afterwards.  It can be: `(1+)` is
balanced, and the parser calls its closing parenthesis unbalanced, because an operand should stand
there.  `unbalanced_reported_iff` says that this is the only way in which it happens.

## What is here

* `unclosed S` — how many parentheses are open on a stack of the machine.  The count of a text whose
  tokens the machine has read goes on with this number (`closes_of_run`).
* `LacksOperand tokens p` — the closing parenthesis at `p` stands where an operand must come.  The
  token before it says so (`lacksOperand_of_run`); only after the opening parenthesis of a call there
  is no need of one, and the machine has another complaint there.
* `closes_or_lacksOperand` — a complaint about parentheses is about tokens that are not balanced, or
  about a place where an operand is lacking.
* `exists_diagnostic_iff` — the diagnostics of a check on an axis are what the check has to say about
  the source.

A complaint of the parser is about parentheses in two cases.  One is missing at the end, and then
there is one open on the stack, so that the count does not end at zero.  Or one is stray: after an
operand this means that none is open, and the count would fall below zero; where an operand must
come, it means nothing about the count.
-/

set_option autoImplicit false

namespace SpaceCurve

/-! ## The words -/

/-- The words with which a complaint about parentheses begins. -/
def Complaint.unbalancedWords : String := "unbalanced parentheses"

/-- Whether the complaint is about parentheses that do not match. -/
def Complaint.isUnbalanced : Complaint → Bool
  | strayClosing => true
  | missingClosing => true
  | _ => false

/-- Complaints about parentheses begin with these words and no others do, whatever is said after the
reason. -/
theorem Complaint.unbalancedWords_prefix_iff (c : Complaint) (tail : List Char) :
    unbalancedWords.toList <+: c.reason.toList ++ tail ↔ c.isUnbalanced = true := by
  -- the equations of `reason` take very long to derive
  delta reason unbalancedWords
  cases c <;> simp [isUnbalanced]

/-! ## Open parentheses -/

namespace Parser

variable {w : List Enclosed} {S : List Frame} {s : State} {t : Token} {v : Tree}
  {e : SyntaxError} {stop : Nat}

/-- Whether the construct is a parenthesis. -/
def Frame.isParenthesis : Frame → Bool
  | .group _ => true
  | .call _ _ _ _ => true
  | _ => false

/-- The number of parentheses that are open. -/
def unclosed (S : List Frame) : Nat := S.countP Frame.isParenthesis

@[simp] theorem unclosed_negate (S : List Frame) : unclosed (.negate :: S) = unclosed S :=
  List.countP_cons_of_neg Bool.false_ne_true

@[simp] theorem unclosed_binary (o : Operator) (left : Tree) (S : List Frame) :
    unclosed (.binary o left :: S) = unclosed S :=
  List.countP_cons_of_neg Bool.false_ne_true

@[simp] theorem unclosed_group (opening : Nat) (S : List Frame) :
    unclosed (.group opening :: S) = unclosed S + 1 :=
  List.countP_cons_of_pos rfl

@[simp] theorem unclosed_call (f : Func) (name opening : Nat) (args : List Tree)
    (S : List Frame) : unclosed (.call f name opening args :: S) = unclosed S + 1 :=
  List.countP_cons_of_pos rfl

/-- A release closes no parenthesis. -/
theorem unclosed_release (k : Nat) (S : List Frame) (v : Tree) :
    unclosed (release k S v).1 = unclosed S := by
  induction S generalizing v with
  | nil => rfl
  | cons frame below ih =>
    cases frame with
    | negate => exact (ih _).trans (unclosed_negate below).symm
    | binary op left =>
      rw [release]
      split
      · exact (ih _).trans (unclosed_binary op left below).symm
      · rfl
    | group opening => rfl
    | call f name opening args => rfl

/-- After a release of all operators the stack is empty, or a parenthesis is on top. -/
theorem unclosed_eq_zero_of_releaseAll
    (hgroup : ∀ opening below, (releaseAll S v).1 ≠ .group opening :: below)
    (hcall : ∀ f name opening args below, (releaseAll S v).1 ≠ .call f name opening args :: below) :
    unclosed S = 0 := by
  have hsettled := settled_release 1 S v
  rw [← unclosed_release 1 S v]
  rw [releaseAll] at hgroup hcall
  cases hstack : (release 1 S v).1 with
  | nil => rfl
  | cons frame below =>
    rw [hstack] at hsettled hgroup hcall
    cases frame with
    | negate => exact hsettled.elim
    | binary op left => exact (not_settled_binary hsettled).elim
    | group opening => exact absurd rfl (hgroup opening below)
    | call f name opening args => exact absurd rfl (hcall f name opening args below)

/-- The parentheses of some lexemes. -/
abbrev marksOf (w : List Enclosed) : List Char := (w.map Enclosed.lexeme).flatMap Balance.marks

theorem marksOf_append (v w : List Enclosed) : marksOf (v ++ w) = marksOf v ++ marksOf w := by
  simp [marksOf]

/-- **The count of parentheses is the number of those on the stack.** -/
theorem Opens.closes (h : Opens w S) (depth : Nat) (rest : List Char) :
    Balance.closes depth (marksOf w ++ rest) = Balance.closes (depth + unclosed S) rest := by
  induction h generalizing depth rest with
  | nil => rfl
  | @negate w S _ _ ih =>
    rw [marksOf_append, List.append_assoc, ih, unclosed_negate]
    rfl
  | @power w l S a _ _ hl ih =>
    rw [marksOf_append, List.append_assoc, ih, marksOf_append, List.append_assoc,
      Balance.closes_of_derives hl, unclosed_binary]
    rfl
  | @product w l S a o _ _ _ hl ih =>
    rw [marksOf_append, List.append_assoc, ih, marksOf_append, List.append_assoc,
      Balance.closes_of_derives hl, unclosed_binary]
    rfl
  | @sum w l S a o _ _ _ hl ih =>
    rw [marksOf_append, List.append_assoc, ih, marksOf_append, List.append_assoc,
      Balance.closes_of_derives hl, unclosed_binary]
    rfl
  | @group w S opening _ _ ih =>
    rw [marksOf_append, List.append_assoc, ih, unclosed_group]
    exact Balance.closes_opening _ _
  | @call w S f name opening _ _ ih =>
    rw [marksOf_append, List.append_assoc, ih, unclosed_call]
    exact Balance.closes_opening _ _
  | @argument w l S f args name opening _ _ hl ih =>
    rw [marksOf_append, List.append_assoc, ih, marksOf_append, List.append_assoc,
      Balance.closes_of_derives hl, unclosed_call]
    rfl

theorem Follows.closes (h : Follows w s) (depth : Nat) (rest : List Char) :
    Balance.closes depth (marksOf w ++ rest) = Balance.closes (depth + unclosed s.stack) rest := by
  cases h with
  | operand h => exact h.closes depth rest
  | callee f name h =>
    rw [marksOf_append, List.append_assoc, h.closes]
    rfl
  | complete h hv =>
    rw [marksOf_append, List.append_assoc, h.closes, Balance.closes_of_derives hv]
    rfl

/-- What has been read of the text decides about the count of all of it. -/
theorem closes_of_run {before : List Token} (h : before.foldlM step start = .ok s)
    (after : List Token) :
    Balance.closes 0 (((before ++ after).map Token.lexeme).flatMap Balance.marks) =
      Balance.closes (unclosed s.stack) ((after.map Token.lexeme).flatMap Balance.marks) := by
  obtain ⟨w, hw, -, hfollows⟩ := (Follows.operand Opens.nil).run h
  have hcount := hfollows.closes 0 ((after.map Token.lexeme).flatMap Balance.marks)
  rw [List.nil_append, marksOf, hw, Nat.zero_add] at hcount
  rw [List.map_append, List.flatMap_append, hcount]

/-! ## Places where an operand must come -/

/-- The closing parenthesis at the position stands right after a token that awaits an operand, but
not right after the opening parenthesis of a call. -/
inductive LacksOperand (tokens : List Token) (p : Nat) : Prop
  | intro {before after : List Token} {last : Token}
      (h : tokens = before ++ last :: ⟨.closing, p⟩ :: after)
      (hawaits : last.lexeme.awaitsOperand = true)
      (hcalled : last.lexeme = .opening →
        ∀ f, (before.map Token.lexeme).getLast? ≠ some (.symbol (.function f)))

/-- What opens constructs does not end with the name of a function. -/
theorem Opens.getLast?_ne (h : Opens w S) (f : Func) :
    (w.map Enclosed.lexeme).getLast? ≠ some (.symbol (.function f)) := by
  cases h <;> simp [List.getLast?_append]

/-- What opens constructs ends with a token that awaits an operand.  If this is the opening
parenthesis of a call, then the call is on top of the stack. -/
theorem Opens.exists_last (h : Opens w S) (hne : w ≠ []) :
    ∃ v x, w = v ++ [x] ∧ x.lexeme.awaitsOperand = true ∧
      (x.lexeme = .opening → (∃ f name opening below, S = .call f name opening [] :: below) ∨
        ∀ f, (v.map Enclosed.lexeme).getLast? ≠ some (.symbol (.function f))) := by
  cases h with
  | nil => exact absurd rfl hne
  | negate => exact ⟨_, _, rfl, rfl, nofun⟩
  | power => exact ⟨_, _, (List.append_assoc ..).symm, rfl, nofun⟩
  | product => exact ⟨_, _, (List.append_assoc ..).symm, rfl, nofun⟩
  | sum => exact ⟨_, _, (List.append_assoc ..).symm, rfl, nofun⟩
  | group opening h => exact ⟨_, _, rfl, rfl, fun _ => .inr h.getLast?_ne⟩
  | call f name opening h =>
    exact ⟨_, _, List.append_cons .., rfl, fun _ => .inl ⟨f, name, opening, _, rfl⟩⟩
  | argument => exact ⟨_, _, (List.append_assoc ..).symm, rfl, nofun⟩

/-- **Where an operand must come, the token before says so**, unless nothing has been read. -/
theorem lacksOperand_of_run {before : List Token}
    (h : before.foldlM step start = .ok ⟨S, .operand⟩) (hne : before ≠ [])
    (hcall : ∀ f name opening below, S ≠ .call f name opening [] :: below) (p : Nat)
    (after : List Token) : LacksOperand (before ++ ⟨.closing, p⟩ :: after) p := by
  obtain ⟨w, hw, -, hfollows⟩ := (Follows.operand Opens.nil).run h
  rw [List.nil_append] at hfollows
  cases hfollows with
  | operand hopens =>
    have hwne : w ≠ [] := by
      rintro rfl
      exact hne (List.map_eq_nil_iff.1 hw.symm)
    obtain ⟨v, x, rfl, hawaits, hcalled⟩ := hopens.exists_last hwne
    obtain ⟨front, last, right, rfl, hfront, hlast, hright⟩ := exists_split hw.symm
    obtain rfl := List.map_eq_nil_iff.1 hright
    rw [List.append_assoc]
    refine .intro rfl (hlast ▸ hawaits) fun hopening f => ?_
    rw [hfront]
    rcases hcalled (hlast ▸ hopening) with ⟨g, name, opening, below, hS⟩ | hnone
    · exact absurd hS (hcall g name opening below)
    · exact hnone f

/-! ## Which complaints there are -/

theorem isUnbalanced_nest {frame : Frame} {g : List Frame → State}
    (h : (nest frame S t).map g = .error e) : e.complaint.isUnbalanced = false := by
  obtain ⟨-, rfl⟩ := nest_eq_error_iff.1 (map_eq_error_iff.1 h)
  rfl

theorem isUnbalanced_close {f : Func} {name : Nat} {args : List Tree}
    (h : close f name args S = .error e) : e.complaint.isUnbalanced = false := by
  obtain ⟨-, rfl⟩ := close_eq_error_iff.1 h
  rfl

theorem isUnbalanced_misplaced (S : List Frame) (t : Token) :
    (misplaced S t).complaint.isUnbalanced = false := by
  rw [misplaced.eq_def]
  split <;> rfl

/-- Where an operand must come, any closing parenthesis is called stray, but for that of a call
without arguments. -/
theorem of_stepOperand_error (h : stepOperand S t = .error e)
    (hc : e.complaint.isUnbalanced = true) :
    t.lexeme = .closing ∧ e.position = some t.position ∧
      ∀ f name opening below, S ≠ .call f name opening [] :: below := by
  rw [stepOperand.eq_def] at h
  split at h
  · cases h
  · cases h
  · cases h
  · cases h
  · exact absurd hc (by simp [isUnbalanced_nest h])
  · exact absurd hc (by simp [isUnbalanced_nest h])
  · next hclosing =>
    split at h
    · exact absurd hc (by simp [isUnbalanced_close h])
    · next hcall =>
      cases h
      exact ⟨hclosing, rfl, hcall⟩
  · cases h
    cases hc
  · cases h
    cases hc

/-- After an operand, a closing parenthesis is called stray when none is open. -/
theorem of_stepComplete_error (h : stepComplete S v t = .error e)
    (hc : e.complaint.isUnbalanced = true) : t.lexeme = .closing ∧ unclosed S = 0 := by
  rw [stepComplete.eq_def] at h
  split at h
  · exact absurd hc (by simp [isUnbalanced_nest h])
  · cases h
  · split at h
    · cases h
    · cases h
      exact absurd hc (by simp [isUnbalanced_misplaced])
  · next hclosing =>
    split at h
    · cases h
    · exact absurd hc (by simp [isUnbalanced_close h])
    · next hgroup hcall =>
      exact ⟨hclosing, unclosed_eq_zero_of_releaseAll (v := v)
        (fun opening below hS => hgroup opening below _ (Prod.ext hS rfl))
        fun f name opening args below hS => hcall f name opening args below _ (Prod.ext hS rfl)⟩
  · cases h
    exact absurd hc (by simp [isUnbalanced_misplaced])

/-- At the end of the text, a parenthesis is called missing when one is open. -/
theorem of_finish_error (h : finish s stop = .error e) (hc : e.complaint.isUnbalanced = true) :
    unclosed s.stack ≠ 0 := by
  obtain ⟨S, focus⟩ := s
  cases focus with
  | operand =>
    cases h
    cases hc
  | callee f name =>
    cases h
    cases hc
  | complete v =>
    show unclosed S ≠ 0
    rw [← unclosed_release 1 S v]
    simp only [finish] at h
    split at h
    · next hrelease =>
      rw [← releaseAll, hrelease]
      simp
    · next hrelease =>
      rw [← releaseAll, hrelease]
      simp
    · cases h

/-- **A complaint about parentheses is about tokens that are not balanced, or about a place where
an operand is lacking.** -/
theorem closes_or_lacksOperand {tokens : List Token} (h : parseTokens tokens stop = .error e)
    (hc : e.complaint.isUnbalanced = true) :
    Balance.closes 0 ((tokens.map Token.lexeme).flatMap Balance.marks) = false ∨
      ∃ p, e.position = some p ∧ LacksOperand tokens p := by
  rcases bind_eq_error_iff.1 h with hrun | ⟨s, hrun, hfinish⟩
  · obtain ⟨before, t, after, s, rfl, hbefore, hstep⟩ := exists_step_error hrun
    -- the count falls below zero at a closing parenthesis when none is open
    have hstray : t.lexeme = .closing → unclosed s.stack = 0 → Balance.closes 0
        (((before ++ t :: after).map Token.lexeme).flatMap Balance.marks) = false := by
      intro hclosing hzero
      rw [closes_of_run hbefore, hzero, List.map_cons, hclosing]
      rfl
    obtain ⟨S, focus⟩ := s
    cases focus with
    | operand =>
      obtain ⟨hclosing, hposition, hcall⟩ := of_stepOperand_error hstep hc
      by_cases hne : before = []
      · subst hne
        cases hbefore
        exact .inl (hstray hclosing rfl)
      · obtain ⟨lexeme, p⟩ := t
        obtain rfl : lexeme = .closing := hclosing
        exact .inr ⟨p, hposition, lacksOperand_of_run hbefore hne hcall p after⟩
    | callee f name =>
      simp only [step] at hstep
      split at hstep
      · exact absurd hc (by simp [isUnbalanced_nest hstep])
      · cases hstep
        cases hc
    | complete v =>
      obtain ⟨hclosing, hzero⟩ := of_stepComplete_error hstep hc
      exact .inl (hstray hclosing hzero)
  · have hcount := closes_of_run hrun []
    rw [List.append_nil] at hcount
    rw [hcount]
    exact .inl (beq_false_of_ne (of_finish_error hfinish hc))

end Parser

/-! ## Texts -/

section

variable {s : String} {e : SyntaxError}

/-- The error points to a closing parenthesis of the text where an operand is lacking. -/
def SyntaxError.LacksOperand (e : SyntaxError) (s : String) : Prop :=
  ∃ tokens p, tokenize s.toList = .ok tokens ∧ e.position = some p ∧ Parser.LacksOperand tokens p

/-- A text is balanced when its tokens are. -/
theorem isBalanced_text {tokens : List Token} (h : tokenize s.toList = .ok tokens) :
    Validation.isBalanced (.text s) =
      Balance.closes 0 ((tokens.map Token.lexeme).flatMap Balance.marks) := by
  have hcount := Balance.closes_of_lexed (Lexer.tokenize_eq_ok_iff.1 h) 0
  rwa [List.append_nil] at hcount

/-- The parser is at fault where a complaint is about parentheses. -/
theorem exists_tokens_of_isUnbalanced (h : Equation.parse (.text s) = .error e)
    (hc : e.complaint.isUnbalanced = true) :
    ∃ tokens, tokenize s.toList = .ok tokens ∧
      Parser.parseTokens tokens s.toList.length = .error e := by
  rcases parseText_eq_error_iff.1 (Equation.parse_text_eq_error_iff.1 h) with
    ⟨-, rfl⟩ | ⟨-, -, rfl⟩ | ⟨-, -, hlexer | hparser⟩
  · cases hc
  · cases hc
  · have hlexical := (Lexer.stands_of_tokenize hlexer).1
    obtain ⟨complaint, position, fragment⟩ := e
    cases complaint
    case strayClosing | missingClosing => exact absurd hlexical Bool.false_ne_true
    all_goals exact absurd hc Bool.false_ne_true
  · exact hparser

/-- **A complaint about parentheses is about a text that is not balanced, or about a place where an
operand is lacking.** -/
theorem not_isBalanced_or_lacksOperand (h : Equation.parse (.text s) = .error e)
    (hc : e.complaint.isUnbalanced = true) :
    Validation.isBalanced (.text s) = false ∨ e.LacksOperand s := by
  obtain ⟨tokens, htokens, hparser⟩ := exists_tokens_of_isUnbalanced h hc
  rw [isBalanced_text htokens]
  refine (Parser.closes_or_lacksOperand hparser hc).imp_right ?_
  rintro ⟨p, hp, hlacks⟩
  exact ⟨tokens, p, htokens, hp, hlacks⟩

/-- A token is known by its position. -/
theorem Lexer.LaidOut.eq_of_position_eq {text : List Char} {tokens : List Token}
    (h : LaidOut text tokens) {t u : Token} (ht : t ∈ tokens) (hu : u ∈ tokens)
    (hposition : t.position = u.position) : t = u :=
  List.inj_on_of_nodup_map h.nodup_positions ht hu hposition

/-- An error that points to a closing parenthesis calls it stray. -/
theorem isUnbalanced_of_lacksOperand (h : Equation.parse (.text s) = .error e)
    (hlacks : e.LacksOperand s) : e.complaint.isUnbalanced = true := by
  obtain ⟨tokens, p, htokens, hp, ⟨hsplit, -, -⟩⟩ := hlacks
  have hlaid := (Lexer.tokenize_eq_ok_iff.1 htokens).laidOut
  have hmem : (⟨.closing, p⟩ : Token) ∈ tokens := by simp [hsplit]
  rcases parseText_eq_error_iff.1 (Equation.parse_text_eq_error_iff.1 h) with
    ⟨-, rfl⟩ | ⟨-, -, rfl⟩ | ⟨-, -, hlexer | ⟨tokens', htokens', hparser⟩⟩
  · cases hp
  · cases hp
  · cases hlexer.symm.trans htokens
  · obtain rfl := Except.ok.inj (htokens'.symm.trans htokens)
    cases Parser.blames_of_parseTokens hparser with
    | theEnd =>
      obtain ⟨run, ⟨hspells, hstands⟩, -⟩ := hlaid.stands _ hmem
      have hlt := lt_length_of_prefix_drop (List.ne_nil_of_length_pos hspells.length_pos) hstands
      exact absurd (Option.some.inj hp) (Nat.ne_of_gt hlt)
    | @token t c ht hstray =>
      obtain rfl := hlaid.eq_of_position_eq ht hmem (Option.some.inj hp)
      rw [SyntaxError.atToken, hstray.2 rfl]
      rfl

/-- **In a balanced text, a complaint is about parentheses just if an operand is lacking.** -/
theorem isUnbalanced_iff_lacksOperand (h : Equation.parse (.text s) = .error e)
    (hb : Validation.isBalanced (.text s) = true) :
    e.complaint.isUnbalanced = true ↔ e.LacksOperand s := by
  refine ⟨fun hc => ?_, isUnbalanced_of_lacksOperand h⟩
  refine (not_isBalanced_or_lacksOperand h hc).resolve_left ?_
  simp [hb]

/-- The reason of an error begins with these words when its complaint is about parentheses. -/
theorem SyntaxError.unbalancedWords_prefix_reason_iff (e : SyntaxError) :
    Complaint.unbalancedWords.toList <+: e.reason.toList ↔ e.complaint.isUnbalanced = true := by
  have hwords := Complaint.unbalancedWords_prefix_iff e.complaint []
  rwa [List.append_nil] at hwords

theorem SyntaxError.exists_message_eq (e : SyntaxError) :
    ∃ tail, e.message.toList = e.reason.toList ++ tail := by
  rw [message]
  split
  · next p => exact ⟨_, by rw [String.append_assoc, String.append_assoc, String.toList_append]⟩
  · exact ⟨[], (List.append_nil _).symm⟩

/-- The same words in the text of a finding. -/
theorem unbalancedWords_prefix_finding_iff (axis : Axis) (e : SyntaxError) :
    (axis.capital ++ " equation has invalid syntax: " ++ Complaint.unbalancedWords).toList <+:
        (axis.capital ++ " " ++ Check.grammarText e).toList ↔ e.complaint.isUnbalanced = true := by
  obtain ⟨tail, htail⟩ := e.exists_message_eq
  have hwords : " equation has invalid syntax: ".toList =
      " ".toList ++ ((Check.failedText .grammar).toList ++ ": ".toList) := by decide +kernel
  rw [← Complaint.unbalancedWords_prefix_iff e.complaint tail]
  simp only [Check.grammarText, String.toList_append, hwords, htail, List.append_assoc,
    List.prefix_append_right_inj, SyntaxError.reason]

end

/-! ## Findings -/

namespace Validation

variable {p : ValidationPolicy} {sources : Triple Value} {v : Verdict}

theorem grammarComplaint?_eq_some_iff {source : Value} {text : String} :
    grammarComplaint? source = some text ↔
      ∃ e, Equation.parse source = .error e ∧ Check.grammarText e = text := by
  rw [grammarComplaint?]
  cases Equation.parse source <;> simp

/-- A source reaches the grammar check when it is present and balanced. -/
theorem complaint?_grammar_eq_some_iff {source : Value} {text : String} :
    complaint? p source .grammar = some text ↔
      isPresent source = true ∧ isBalanced source = true ∧
        ∃ e, Equation.parse source = .error e ∧ Check.grammarText e = text := by
  rw [complaint?]
  split
  · next h =>
    rw [Bool.and_eq_true] at h
    simp only [h, true_and, grammarComplaint?_eq_some_iff]
  · next h =>
    rw [Bool.and_eq_true] at h
    refine iff_of_false (Option.some_ne_none text).symm ?_
    rintro ⟨hpresent, hbalanced, -⟩
    exact h ⟨hpresent, hbalanced⟩

/-- The diagnostics of a check on an axis, unless a policy may demote it, are the remarks of this
check on the source. -/
theorem exists_diagnostic_iff [Machine] (fig : p.Figures) (hv : validate sources p = .ok v)
    (axis : Axis) (check : Check) (hkind : check.kind ≠ .geometry) (message : Value) :
    (∃ f ∈ v.diagnostics, f.axis = .text axis.name ∧ f.check = .text check.name ∧
        f.message = message) ↔
      ∃ text, complaint? p (sources.get axis) check = some text ∧
        message = .text (axis.capital ++ " " ++ text) := by
  rw [validate_eq fig] at hv
  obtain ⟨events, hevents, rfl⟩ := map_eq_ok_iff.1 hv
  obtain ⟨habout, -⟩ := about_verdictOn sources hevents (runNotes p sources) axis
  have hmem : ∀ f : Finding,
      f ∈ (verdictOn p (allFailures p sources events) (runNotes p sources)).diagnostics ∧
        f.axis = .text axis.name ↔
      ∃ r, (r ∈ remarks p (sources.get axis) ∧ isDemotedRemark p r = false) ∧
        remarkOn axis r = f := by
    intro f
    rw [← mem_about_iff, habout, List.mem_map]
    simp only [List.mem_filter, Bool.not_eq_true']
  constructor
  · rintro ⟨f, hf, haxis, hcheck, rfl⟩
    obtain ⟨⟨other, text⟩, ⟨hremark, -⟩, rfl⟩ := (hmem f).1 ⟨hf, haxis⟩
    obtain rfl : other = check := Check.name_inj (Value.text.inj hcheck)
    exact ⟨text, mem_remarks_iff.1 hremark, rfl⟩
  · rintro ⟨text, htext, rfl⟩
    have hkept : isDemotedRemark p (check, text) = false := by
      rw [isDemotedRemark, beq_false_of_ne hkind, Bool.false_and]
    obtain ⟨hf, haxis⟩ := (hmem _).2 ⟨_, ⟨mem_remarks_iff.2 htext, hkept⟩, rfl⟩
    exact ⟨_, hf, haxis, rfl, rfl⟩

/-- A source in which an operand is lacking is there. -/
theorem isPresent_of_lacksOperand {s : String} {e : SyntaxError}
    (h : Equation.parse (.text s) = .error e) (hlacks : e.LacksOperand s) :
    isPresent (.text s) = true := by
  obtain ⟨tokens, p, -, hp, -⟩ := hlacks
  rcases parseText_eq_error_iff.1 (Equation.parse_text_eq_error_iff.1 h) with
    ⟨-, rfl⟩ | ⟨-, -, rfl⟩ | ⟨-, hstrip, -⟩
  · cases hp
  · cases hp
  · exact bne_iff_ne.2 hstrip

/-- A diagnostic of the grammar check whose text begins by speaking of unbalanced parentheses. -/
def CallsUnbalanced (axis : Axis) (f : Finding) : Prop :=
  f.axis = .text axis.name ∧ f.check = .text Check.grammar.name ∧ ∃ text, f.message = .text text ∧
    (axis.capital ++ " equation has invalid syntax: " ++ Complaint.unbalancedWords).toList <+:
      text.toList

/-- An axis has such a diagnostic when its source is balanced and the error of parsing it is about
parentheses. -/
theorem exists_callsUnbalanced_iff [Machine] (fig : p.Figures) (hv : validate sources p = .ok v)
    (axis : Axis) :
    (∃ f ∈ v.diagnostics, CallsUnbalanced axis f) ↔
      ∃ e, isPresent (sources.get axis) = true ∧ isBalanced (sources.get axis) = true ∧
        Equation.parse (sources.get axis) = .error e ∧ e.complaint.isUnbalanced = true := by
  have hiff := exists_diagnostic_iff fig hv axis .grammar (by decide)
  constructor
  · rintro ⟨f, hf, haxis, hcheck, text, hmessage, hprefix⟩
    obtain ⟨_, hcomplaint, htext⟩ := (hiff _).1 ⟨f, hf, haxis, hcheck, hmessage⟩
    obtain ⟨hpresent, hbalanced, e, he, rfl⟩ := complaint?_grammar_eq_some_iff.1 hcomplaint
    obtain rfl := Value.text.inj htext
    exact ⟨e, hpresent, hbalanced, he, (unbalancedWords_prefix_finding_iff axis e).1 hprefix⟩
  · rintro ⟨e, hpresent, hbalanced, he, hc⟩
    obtain ⟨f, hf, haxis, hcheck, hmessage⟩ := (hiff _).2
      ⟨_, complaint?_grammar_eq_some_iff.2 ⟨hpresent, hbalanced, e, he, rfl⟩, rfl⟩
    exact ⟨f, hf, haxis, hcheck, _, hmessage, (unbalancedWords_prefix_finding_iff axis e).2 hc⟩

end Validation

/-! ## Where the count and the parser disagree -/

open Validation in
/-- **When a balanced source is called unbalanced.**  If a text with balanced parentheses is no
equation, then the reason begins with `unbalanced parentheses` just when the error points to a
closing parenthesis of the text where an operand must come.  In a verdict, under a policy read from
settings, a diagnostic of the grammar check on an axis with this text says so just when the text is
balanced and its error is such. -/
theorem unbalanced_reported_iff [Machine] (s : String) :
    (∀ e, Equation.parse (.text s) = .error e → isBalanced (.text s) = true →
      (Complaint.unbalancedWords.toList <+: e.reason.toList ↔ e.LacksOperand s)) ∧
    ∀ (settings : Fields) (p : ValidationPolicy), ValidationPolicy.ofSettings settings = .ok p →
      ∀ (sources : Triple Value) (v : Verdict), validate sources p = .ok v →
        ∀ axis, sources.get axis = .text s →
          ((∃ f ∈ v.diagnostics, CallsUnbalanced axis f) ↔
            ∃ e, isBalanced (.text s) = true ∧ Equation.parse (.text s) = .error e ∧
              e.LacksOperand s) := by
  refine ⟨fun e he hb => ?_, fun settings p hp sources v hv axis hs => ?_⟩
  · exact e.unbalancedWords_prefix_reason_iff.trans (isUnbalanced_iff_lacksOperand he hb)
  · obtain ⟨fig⟩ := ValidationPolicy.nonempty_figures hp
    rw [exists_callsUnbalanced_iff fig hv axis, hs]
    constructor
    · rintro ⟨e, -, hb, he, hc⟩
      exact ⟨e, hb, he, (isUnbalanced_iff_lacksOperand he hb).1 hc⟩
    · rintro ⟨e, hb, he, hlacks⟩
      exact ⟨e, isPresent_of_lacksOperand he hlacks, hb, he,
        (isUnbalanced_iff_lacksOperand he hb).2 hlacks⟩

/-- A sum whose second operand is lacking, in parentheses that match. -/
def sumCutShort : String := "(1+)"

theorem parse_sumCutShort :
    Equation.parse (.text sumCutShort) = .error ⟨.strayClosing, some 3, some ")"⟩ := by
  have herror : (Equation.parse (.text sumCutShort)).map (fun _ => ()) =
      .error ⟨.strayClosing, some 3, some ")"⟩ := by
    decide +kernel
  exact map_eq_error_iff.1 herror

theorem isBalanced_sumCutShort : Validation.isBalanced (.text sumCutShort) = true := by
  decide +kernel

/-- The sum on one axis and numbers on the others. -/
def sourcesCutShort : Triple Value := ⟨.text sumCutShort, .text "1", .text "1"⟩

open Validation in
theorem unbalanced_reported_iff_sumCutShort :
    letI := Machine.ample
    ∃ e v, Equation.parse (.text sumCutShort) = .error e ∧ isBalanced (.text sumCutShort) = true ∧
      e.LacksOperand sumCutShort ∧ ValidationPolicy.ofSettings [] = .ok .default ∧
      validate sourcesCutShort .default = .ok v ∧ ∃ f ∈ v.diagnostics, CallsUnbalanced .x f := by
  let _ := Machine.ample
  have hp : ValidationPolicy.ofSettings [] = .ok .default := rfl
  obtain ⟨fig⟩ := ValidationPolicy.nonempty_figures hp
  obtain ⟨v, hv⟩ := exists_validate_of_hasRoom fig ⟨10, rfl, rfl⟩ sourcesCutShort
  obtain ⟨hreason, hdiagnostic⟩ := unbalanced_reported_iff sumCutShort
  have hlacks := (hreason _ parse_sumCutShort isBalanced_sumCutShort).1
    ((SyntaxError.unbalancedWords_prefix_reason_iff _).2 rfl)
  exact ⟨_, v, parse_sumCutShort, isBalanced_sumCutShort, hlacks, hp, hv,
    (hdiagnostic _ _ hp _ _ hv .x rfl).2 ⟨_, isBalanced_sumCutShort, parse_sumCutShort, hlacks⟩⟩

open Validation in
/-- So the parser calls a source unbalanced which has passed the count. -/
theorem exists_balanced_reported :
    letI := Machine.ample
    ∃ s e v, Equation.parse (.text s) = .error e ∧
      Complaint.unbalancedWords.toList <+: e.reason.toList ∧ isBalanced (.text s) = true ∧
      validate ⟨.text s, .text "1", .text "1"⟩ .default = .ok v ∧
      ∃ f ∈ v.diagnostics, CallsUnbalanced .x f := by
  let _ := Machine.ample
  have hp : ValidationPolicy.ofSettings [] = .ok .default := rfl
  obtain ⟨fig⟩ := ValidationPolicy.nonempty_figures hp
  obtain ⟨v, hv⟩ := exists_validate_of_hasRoom fig ⟨10, rfl, rfl⟩ sourcesCutShort
  exact ⟨sumCutShort, _, v, parse_sumCutShort,
    (SyntaxError.unbalancedWords_prefix_reason_iff _).2 rfl, isBalanced_sumCutShort, hv,
    (exists_callsUnbalanced_iff fig hv .x).2
      ⟨_, by decide +kernel, isBalanced_sumCutShort, parse_sumCutShort, rfl⟩⟩

end SpaceCurve
