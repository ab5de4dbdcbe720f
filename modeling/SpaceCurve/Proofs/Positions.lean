import SpaceCurve.Proofs.Balance

/-!
# Where an error points

An error names a position and the piece of text that stands there.  The lexer has both at hand.  The
machine of the parser reports the token it is at, but also tokens that it has left behind: the name
of a function whose call is wrong, or the parenthesis that is never closed.  It knows them by what
its stack says, so it has to be shown that the stack says where they really stand.

## What is here

* `Rooted tokens` — all that a state of the machine says about positions is true of these tokens.
  One step keeps it so (`State.Rooted.step`), and so does a run.
* `Blames tokens stop e` — the error is about one of the tokens, or about the end of the text.  An
  error in one step is of this kind (`State.Rooted.blames`), and so is every error of the parser
  (`blames_of_parseTokens`).
* `exists_flaw_of_scan` — the error of the lexer is about the piece of text where nothing of the
  lexicon begins.
* `parse_error_located` — both together, for the text of an equation.  The lexer reads the whole
  text before the parser looks at the first token, so a lexical fault takes precedence.

The fragment of an error is the text of a token, and one token can be spelled in two ways.  So it
stands in the text at the position, but for `^`, where `**` may stand.
-/

set_option autoImplicit false

namespace SpaceCurve
namespace Parser

variable {tokens rest : List Token} {t : Token} {s s' : State} {S : List Frame} {v : Tree}
  {e : SyntaxError} {stop : Nat}

/-! ## The positions on the stack -/

/-- The construct remembers where its tokens stand. -/
def Frame.Rooted (tokens : List Token) : Frame → Prop
  | .binary _ _ => True
  | .negate => True
  | .group opening => ⟨.opening, opening⟩ ∈ tokens
  | .call f name opening _ => ⟨.symbol (.function f), name⟩ ∈ tokens ∧ ⟨.opening, opening⟩ ∈ tokens

/-- What has been read last remembers where it stands. -/
def Focus.Rooted (tokens : List Token) : Focus → Prop
  | .callee f name => ⟨.symbol (.function f), name⟩ ∈ tokens
  | _ => True

/-- All positions in the state are those of tokens. -/
structure State.Rooted (tokens : List Token) (s : State) : Prop where
  stack : ∀ frame ∈ s.stack, frame.Rooted tokens
  focus : s.focus.Rooted tokens

theorem mem_of_lexeme {l : Lexeme} (ht : t ∈ tokens) (hl : t.lexeme = l) :
    ⟨l, t.position⟩ ∈ tokens := by
  subst hl
  exact ht

theorem rooted_start (tokens : List Token) : start.Rooted tokens :=
  ⟨fun _ h => absurd h List.not_mem_nil, trivial⟩

/-- A release takes frames off the stack and changes none. -/
theorem release_suffix (k : Nat) (S : List Frame) (v : Tree) : (release k S v).1 <:+ S := by
  induction S generalizing v with
  | nil => exact List.suffix_rfl
  | cons frame below ih =>
    cases frame with
    | negate => exact (ih _).trans (List.suffix_cons _ _)
    | binary op left =>
      rw [release]
      split
      · exact (ih _).trans (List.suffix_cons _ _)
      · exact List.suffix_rfl
    | group opening => exact List.suffix_rfl
    | call f name opening args => exact List.suffix_rfl

theorem nest_eq_error_iff {frame : Frame} :
    nest frame S t = .error e ↔
      Lexicon.maxDepth ≤ depth S ∧ SyntaxError.atToken .tooDeep t = e := by
  rw [nest]
  split
  · next h => simp [h]
  · next h => simp [h]

theorem close_eq_error_iff {f : Func} {name : Nat} {args : List Tree} :
    close f name args S = .error e ↔ args.length ≠ f.arity ∧
      SyntaxError.atToken (.wrongCount f args.length) ⟨.symbol (.function f), name⟩ = e := by
  by_cases h : args.length = f.arity
  · simp [close, h]
  · simp [close, h, SyntaxError.atText, SyntaxError.atToken, Lexeme.text, Symbol.spelling]

/-! ## One step -/

theorem Frame.Rooted.stepOperand (hS : ∀ frame ∈ S, frame.Rooted tokens) (ht : t ∈ tokens)
    (h : stepOperand S t = .ok s) : s.Rooted tokens := by
  rw [Parser.stepOperand.eq_def] at h
  split at h
  · cases h
    exact ⟨hS, trivial⟩
  · cases h
    exact ⟨hS, trivial⟩
  · cases h
    exact ⟨hS, trivial⟩
  · next f hf =>
    cases h
    exact ⟨hS, mem_of_lexeme ht hf⟩
  · obtain ⟨-, rfl⟩ := map_nest_eq_ok_iff.1 h
    exact ⟨List.forall_mem_cons.2 ⟨trivial, hS⟩, trivial⟩
  · next hopening =>
    obtain ⟨-, rfl⟩ := map_nest_eq_ok_iff.1 h
    exact ⟨List.forall_mem_cons.2 ⟨mem_of_lexeme ht hopening, hS⟩, trivial⟩
  · split at h
    · obtain ⟨-, rfl⟩ := close_eq_ok_iff.1 h
      exact ⟨(List.forall_mem_cons.1 hS).2, trivial⟩
    · cases h
  · cases h
  · cases h

theorem Frame.Rooted.stepComplete (hS : ∀ frame ∈ S, frame.Rooted tokens)
    (h : stepComplete S v t = .ok s) : s.Rooted tokens := by
  have hreleased : ∀ k, ∀ frame ∈ (release k S v).1, frame.Rooted tokens :=
    fun k frame hframe => hS frame ((release_suffix k S v).subset hframe)
  have hall := hreleased 1
  rw [Parser.stepComplete.eq_def] at h
  split at h
  · obtain ⟨-, rfl⟩ := map_nest_eq_ok_iff.1 h
    exact ⟨List.forall_mem_cons.2 ⟨trivial, hS⟩, trivial⟩
  · cases h
    exact ⟨List.forall_mem_cons.2 ⟨trivial, hreleased _⟩, trivial⟩
  · split at h
    · next hrelease =>
      cases h
      rw [← releaseAll, hrelease] at hall
      obtain ⟨hcall, hbelow⟩ := List.forall_mem_cons.1 hall
      exact ⟨List.forall_mem_cons.2 ⟨hcall, hbelow⟩, trivial⟩
    · cases h
  · split at h
    · next hrelease =>
      cases h
      rw [← releaseAll, hrelease] at hall
      exact ⟨(List.forall_mem_cons.1 hall).2, trivial⟩
    · next hrelease =>
      obtain ⟨-, rfl⟩ := close_eq_ok_iff.1 h
      rw [← releaseAll, hrelease] at hall
      exact ⟨(List.forall_mem_cons.1 hall).2, trivial⟩
    · cases h
  · cases h

/-- **One step keeps the positions right.** -/
theorem State.Rooted.step (hs : s.Rooted tokens) (ht : t ∈ tokens) (h : step s t = .ok s') :
    s'.Rooted tokens := by
  obtain ⟨S, focus⟩ := s
  cases focus with
  | operand => exact Frame.Rooted.stepOperand hs.stack ht h
  | complete v => exact Frame.Rooted.stepComplete hs.stack h
  | callee f name =>
    simp only [Parser.step] at h
    split at h
    · next hopening =>
      obtain ⟨-, rfl⟩ := map_nest_eq_ok_iff.1 h
      exact ⟨List.forall_mem_cons.2 ⟨⟨hs.focus, mem_of_lexeme ht hopening⟩, hs.stack⟩, trivial⟩
    · cases h

theorem State.Rooted.run (hs : s.Rooted tokens) (hrest : rest ⊆ tokens)
    (h : rest.foldlM Parser.step s = .ok s') : s'.Rooted tokens := by
  induction rest generalizing s with
  | nil =>
    cases h
    exact hs
  | cons t rest ih =>
    obtain ⟨ht, hrest⟩ := List.cons_subset.1 hrest
    rw [List.foldlM_cons] at h
    obtain ⟨s₁, hstep, hrun⟩ := bind_eq_ok_iff.1 h
    exact ih (hs.step ht hstep) hrest hrun

/-! ## The error of a step -/

/-- The error is about one of the tokens, or about the end of the text.  A closing parenthesis is
the only token that can be stray, and nothing else can be wrong with it. -/
inductive Blames (tokens : List Token) (stop : Nat) : SyntaxError → Prop
  | token {t : Token} (c : Complaint) (ht : t ∈ tokens)
      (hstray : c = .strayClosing ↔ t.lexeme = .closing) :
      Blames tokens stop (SyntaxError.atToken c t)
  | theEnd : Blames tokens stop (SyntaxError.atEnd .unexpectedEnd stop)

/-- An error about a token that is no closing parenthesis. -/
theorem Blames.other (c : Complaint) (ht : t ∈ tokens) (hc : c ≠ .strayClosing)
    (hlexeme : t.lexeme ≠ .closing) : Blames tokens stop (SyntaxError.atToken c t) :=
  .token c ht (iff_of_false hc hlexeme)

theorem Blames.stray (ht : t ∈ tokens) (hlexeme : t.lexeme = .closing) :
    Blames tokens stop (SyntaxError.atToken .strayClosing t) :=
  .token _ ht (iff_of_true rfl hlexeme)

theorem Blames.misplaced (S : List Frame) (ht : t ∈ tokens) (hlexeme : t.lexeme ≠ .closing) :
    Blames tokens stop (misplaced S t) := by
  rw [Parser.misplaced.eq_def]
  split
  · exact .other _ ht nofun hlexeme
  · exact .other _ ht nofun hlexeme

theorem Blames.nest {frame : Frame} {g : List Frame → State} (ht : t ∈ tokens)
    (hlexeme : t.lexeme ≠ .closing) (h : (nest frame S t).map g = .error e) :
    Blames tokens stop e := by
  obtain ⟨-, rfl⟩ := nest_eq_error_iff.1 (map_eq_error_iff.1 h)
  exact .other _ ht nofun hlexeme

theorem Blames.close {f : Func} {name : Nat} {args : List Tree}
    (hname : ⟨.symbol (.function f), name⟩ ∈ tokens) (h : close f name args S = .error e) :
    Blames tokens stop e := by
  obtain ⟨-, rfl⟩ := close_eq_error_iff.1 h
  exact .other _ hname nofun nofun

theorem Blames.stepOperand (hS : ∀ frame ∈ S, frame.Rooted tokens) (ht : t ∈ tokens)
    (h : stepOperand S t = .error e) : Blames tokens stop e := by
  rw [Parser.stepOperand.eq_def] at h
  split at h
  · cases h
  · cases h
  · cases h
  · cases h
  · next hlexeme => exact .nest ht (by simp [hlexeme]) h
  · next hlexeme => exact .nest ht (by simp [hlexeme]) h
  · next hlexeme =>
    split at h
    · exact .close (List.forall_mem_cons.1 hS).1.1 h
    · cases h
      exact .stray ht hlexeme
  · next hlexeme =>
    cases h
    exact .other _ ht (by simp) (by simp [hlexeme])
  · next hlexeme =>
    cases h
    exact .other _ ht (by simp) (by simp [hlexeme])

theorem Blames.stepComplete (hS : ∀ frame ∈ S, frame.Rooted tokens) (ht : t ∈ tokens)
    (h : stepComplete S v t = .error e) : Blames tokens stop e := by
  rw [Parser.stepComplete.eq_def] at h
  split at h
  · next hlexeme => exact .nest ht (by simp [hlexeme]) h
  · cases h
  · next hlexeme =>
    split at h
    · cases h
    · cases h
      exact .misplaced _ ht (by simp [hlexeme])
  · next hlexeme =>
    split at h
    · cases h
    · next hrelease =>
      have hcall := hS _ ((release_suffix 1 S v).subset
        (by rw [← releaseAll, hrelease]; exact List.mem_cons_self ..))
      exact .close hcall.1 h
    · cases h
      exact .stray ht hlexeme
  · next hlexeme =>
    cases h
    exact .misplaced _ ht fun hclosing => by simp_all

/-- **The error of a step is about a token that has been read.** -/
theorem State.Rooted.blames (hs : s.Rooted tokens) (ht : t ∈ tokens) (h : Parser.step s t = .error e) :
    Blames tokens stop e := by
  obtain ⟨S, focus⟩ := s
  cases focus with
  | operand => exact .stepOperand hs.stack ht h
  | complete v => exact .stepComplete hs.stack ht h
  | callee f name =>
    simp only [Parser.step] at h
    split at h
    · next hlexeme => exact .nest ht (by simp [hlexeme]) h
    · cases h
      exact .other _ hs.focus (by simp) (by simp)

theorem State.Rooted.blames_finish (hs : s.Rooted tokens) (h : finish s stop = .error e) :
    Blames tokens stop e := by
  obtain ⟨S, focus⟩ := s
  cases focus with
  | operand =>
    cases h
    exact .theEnd
  | callee f name =>
    cases h
    exact .other (t := ⟨.symbol (.function f), name⟩) _ hs.focus (by simp) (by simp)
  | complete v =>
    have hall : ∀ frame ∈ (releaseAll S v).1, frame.Rooted tokens :=
      fun frame hframe => hs.stack frame ((release_suffix 1 S v).subset hframe)
    simp only [finish] at h
    split at h
    · next opening _ _ hrelease =>
      cases h
      rw [hrelease] at hall
      exact .other (t := ⟨.opening, opening⟩) _ (List.forall_mem_cons.1 hall).1 (by simp) (by simp)
    · next opening _ _ _ hrelease =>
      cases h
      rw [hrelease] at hall
      exact .other (t := ⟨.opening, opening⟩) _ (List.forall_mem_cons.1 hall).1.2 (by simp)
        (by simp)
    · cases h

/-! ## The error of a run -/

/-- A run that fails gets to some state and fails in the next step. -/
theorem exists_step_error (h : tokens.foldlM step s = .error e) :
    ∃ before t after s', tokens = before ++ t :: after ∧ before.foldlM step s = .ok s' ∧
      step s' t = .error e := by
  induction tokens generalizing s with
  | nil => cases h
  | cons t rest ih =>
    cases hstep : step s t with
    | error e' =>
      rw [List.foldlM_cons, hstep] at h
      cases h
      exact ⟨[], t, rest, s, rfl, rfl, hstep⟩
    | ok s₁ =>
      rw [run_cons hstep] at h
      obtain ⟨before, u, after, s', rfl, hrun, hu⟩ := ih h
      exact ⟨t :: before, u, after, s', rfl, by rw [run_cons hstep, hrun], hu⟩

/-- **Every error of the parser is about a token or about the end of the text.** -/
theorem blames_of_parseTokens (h : parseTokens tokens stop = .error e) : Blames tokens stop e := by
  rcases bind_eq_error_iff.1 h with hrun | ⟨s, hrun, hfinish⟩
  · obtain ⟨before, t, after, s, rfl, hbefore, hstep⟩ := exists_step_error hrun
    have hrooted := (rooted_start (before ++ t :: after)).run (List.subset_append_left ..) hbefore
    exact hrooted.blames (by simp) hstep
  · exact ((rooted_start tokens).run (List.Subset.refl _) hrun).blames_finish hfinish

end Parser

/-! ## The error of the lexer -/

/-- Whether the complaint is about a piece of text that is not in the lexicon. -/
def Complaint.isLexical : Complaint → Bool
  | malformedNumber _ => true
  | unknownSymbol _ => true
  | unexpectedCharacter _ => true
  | _ => false

namespace Lexer

theorem of_lexemeAt_eq_error {c : Char} {rest run : List Char} {complaint : Complaint}
    (h : lexemeAt c rest = .error (complaint, run)) :
    complaint.isLexical = true ∧ run ≠ [] ∧ run <+: c :: rest := by
  have hwhile : ∀ p : Char → Bool, c :: rest.takeWhile p <+: c :: rest :=
    fun p => List.cons_prefix_cons.2 ⟨rfl, List.takeWhile_prefix p⟩
  rw [lexemeAt.eq_def] at h
  split at h
  · simp only at h
    split at h
    · cases h
    · cases h
      exact ⟨rfl, by simp, hwhile _⟩
  · split at h
    · simp only at h
      split at h
      · cases h
      · cases h
        exact ⟨rfl, by simp, hwhile _⟩
    · split at h
      · split at h <;> cases h
      · split at h
        · cases h
        · cases h
          exact ⟨rfl, by simp, List.cons_prefix_cons.2 ⟨rfl, List.nil_prefix⟩⟩

/-- **The lexer fails at the first place where no lexeme stands**, and on the text there. -/
theorem exists_flaw_of_scan {p : Nat} {text : List Char} {e : SyntaxError}
    (h : scan p text = .error e) :
    ∃ tokens q after complaint run, Lexed p text tokens q after ∧
      e = SyntaxError.atText complaint q (String.ofList run) ∧
      complaint.isLexical = true ∧ run ≠ [] ∧ run <+: after := by
  obtain ⟨tokens, q, after, hlexed, hforeign, -⟩ := lexed_of_scan_error h
  rw [scan_of_lexed hlexed, map_eq_error_iff] at h
  obtain ⟨⟨c, rest, rfl, hblank⟩, hnone⟩ := hforeign
  rw [scan, if_neg (by simp [hblank])] at h
  split at h
  · next complaint run hflaw =>
    cases h
    exact ⟨tokens, q, _, complaint, run, hlexed, rfl, of_lexemeAt_eq_error hflaw⟩
  · next l after hfound =>
    obtain ⟨run, happend, hspells, hends⟩ := spells_of_lexemeAt hfound
    exact absurd hends (hnone l run after happend hspells)

end Lexer

/-! ## The error of a text -/

section

variable {text : List Char} {tokens : List Token} {e : SyntaxError} {p : Nat}

/-- The fragment of the error stands in the text at the position.  An error without a fragment is
about the end of the text, and `**` may stand for `^`. -/
def SyntaxError.Stands (e : SyntaxError) (text : List Char) (p : Nat) : Prop :=
  e.fragment = none ∧ p = text.length ∨
    ∃ fragment, e.fragment = some fragment ∧ fragment ≠ "" ∧
      (fragment.toList <+: text.drop p ∨ fragment = "^" ∧ ['*', '*'] <+: text.drop p)

theorem lt_length_of_prefix_drop {run : List Char} (hne : run ≠ []) (h : run <+: text.drop p) :
    p < text.length := by
  have hle := h.length_le
  have hpos := List.length_pos_of_ne_nil hne
  rw [List.length_drop] at hle
  omega

/-- The error of the parser is where the fragment says. -/
theorem Parser.Blames.stands (h : Blames tokens text.length e) (htokens : tokenize text = .ok tokens) :
    ∃ p, e.position = some p ∧ p ≤ text.length ∧ e.Stands text p := by
  cases h with
  | theEnd => exact ⟨_, rfl, Nat.le_refl _, .inl ⟨rfl, rfl⟩⟩
  | @token t c ht =>
    obtain ⟨run, ⟨hspells, hstands⟩, hrun⟩ :=
      (Lexer.tokenize_eq_ok_iff.1 htokens).laidOut.stands t ht
    have hne : run ≠ [] := List.ne_nil_of_length_pos hspells.length_pos
    refine ⟨_, rfl, Nat.le_of_lt (lt_length_of_prefix_drop hne hstands), .inr ⟨_, rfl, ?_⟩⟩
    rcases hrun with rfl | ⟨hpow, rfl⟩
    · exact ⟨fun hempty => hne (by rw [hempty]; rfl), .inl hstands⟩
    · exact ⟨by rw [hpow]; decide, .inr ⟨by rw [hpow]; rfl, hstands⟩⟩

/-- The error of the lexer is where the fragment says, and is about something foreign. -/
theorem Lexer.stands_of_tokenize (h : tokenize text = .error e) :
    e.complaint.isLexical = true ∧
      ∃ p, e.position = some p ∧ p ≤ text.length ∧ e.Stands text p := by
  obtain ⟨tokens, q, after, complaint, run, hlexed, rfl, hlexical, hne, hrun⟩ :=
    exists_flaw_of_scan h
  obtain ⟨read, happend, hq⟩ := hlexed.exists_append
  have hdrop : run <+: text.drop q := by
    rw [happend, hq, Nat.zero_add, List.drop_left]
    exact hrun
  refine ⟨hlexical, q, rfl, Nat.le_of_lt (lt_length_of_prefix_drop hne hdrop), .inr ⟨_, rfl, ?_, ?_⟩⟩
  · exact fun hempty => hne (String.ofList_eq_empty_iff.1 hempty)
  · exact .inl (by rwa [String.toList_ofList])

/-- Why a text is no equation: it is too long, or blank, or the lexer fails, or the parser does. -/
theorem parseText_eq_error_iff :
    parseText text = .error e ↔
      Lexicon.maxLength < text.length ∧ e = SyntaxError.overall .tooLong ∨
      text.length ≤ Lexicon.maxLength ∧ Text.strip text = [] ∧ e = SyntaxError.overall .blank ∨
      text.length ≤ Lexicon.maxLength ∧ Text.strip text ≠ [] ∧
        (tokenize text = .error e ∨
          ∃ tokens, tokenize text = .ok tokens ∧
            Parser.parseTokens tokens text.length = .error e) := by
  have hblank : text.all Text.isBlank = true ↔ Text.strip text = [] := by
    rw [Text.strip_eq_nil_iff, List.all_eq_true]
  rw [parseText]
  split
  · next hlong => simp only [hlong, Nat.not_le.2 hlong, true_and, false_and, or_false,
      Except.error.injEq, eq_comm]
  · next hlong =>
    split
    · next h => simp only [hlong, Nat.not_lt.1 hlong, hblank.1 h, true_and, false_and, false_or,
        ne_eq, not_true_eq_false, or_false, Except.error.injEq, eq_comm]
    · next h =>
      have hstrip : Text.strip text ≠ [] := fun hnil => h (hblank.2 hnil)
      simp only [hlong, Nat.not_lt.1 hlong, hstrip, true_and, false_and, false_or, ne_eq,
        not_false_eq_true, bind_eq_error_iff]

theorem Equation.parse_text_eq_error_iff {s : String} :
    Equation.parse (.text s) = .error e ↔ parseText s.toList = .error e :=
  map_eq_error_iff

open Lexer in
/-- The error of a text that is neither too long nor blank has a place, and this is the first foreign
place, if there is one. -/
theorem exists_place_of_error (hlength : text.length ≤ Lexicon.maxLength)
    (hstrip : Text.strip text ≠ []) (h : parseText text = .error e) :
    ∃ p, e.position = some p ∧ p ≤ text.length ∧ e.Stands text p ∧
      ∀ tokens q after, Lexed 0 text tokens q after → Foreign after →
        p = q ∧ tokenize text = .error e ∧ e.complaint.isLexical = true := by
  rcases parseText_eq_error_iff.1 h with
    ⟨hlong, -⟩ | ⟨-, hblank, -⟩ | ⟨-, -, hlexer | ⟨tokens, htokens, hparser⟩⟩
  · exact absurd hlength (Nat.not_le.2 hlong)
  · exact absurd hblank hstrip
  · obtain ⟨hlexical, p, hp, hle, hstands⟩ := stands_of_tokenize hlexer
    refine ⟨p, hp, hle, hstands, fun tokens q after hlexed hforeign => ?_⟩
    obtain ⟨e', he', hq⟩ := scan_error_of_lexed hlexed hforeign
    obtain rfl : e' = e := Except.error.inj (he'.symm.trans hlexer)
    exact ⟨Option.some.inj (hp.symm.trans hq), hlexer, hlexical⟩
  · obtain ⟨p, hp, hle, hstands⟩ := (Parser.blames_of_parseTokens hparser).stands htokens
    refine ⟨p, hp, hle, hstands, fun _ q after hlexed hforeign => ?_⟩
    obtain ⟨e', he', -⟩ := scan_error_of_lexed hlexed hforeign
    cases he'.symm.trans htokens

end

open Lexer in
/-- **Every error points into the text.**  A text that is no equation has an error without a place
when it has more than 500 characters or is blank, and then there is no fragment either.  Any other
error has a position in the text or at its end.  The fragment is missing at the end of the text;
otherwise it is not empty and stands at the position, where `**` may stand for `^`.  If something in
the text is foreign to the lexicon, the error is about the first such place, whatever is wrong before
it. -/
theorem parse_error_located {s : String} {e : SyntaxError}
    (h : Equation.parse (.text s) = .error e) :
    (e.position = none ↔ 500 < s.toList.length ∨ Text.strip s.toList = []) ∧
    (e.position = none → e.fragment = none) ∧
    ∀ p, e.position = some p →
      p ≤ s.toList.length ∧
      (e.fragment = none ∧ p = s.toList.length ∨
        ∃ fragment, e.fragment = some fragment ∧ fragment ≠ "" ∧
          (fragment.toList <+: s.toList.drop p ∨
            fragment = "^" ∧ ['*', '*'] <+: s.toList.drop p)) ∧
      ∀ tokens q after, Lexed 0 s.toList tokens q after → Foreign after →
        p = q ∧ tokenize s.toList = .error e ∧ e.complaint.isLexical = true := by
  rw [Equation.parse_text_eq_error_iff] at h
  rcases parseText_eq_error_iff.1 h with ⟨hlong, rfl⟩ | ⟨-, hblank, rfl⟩ | ⟨hlength, hstrip, -⟩
  · exact ⟨iff_of_true rfl (.inl hlong), fun _ => rfl, nofun⟩
  · exact ⟨iff_of_true rfl (.inr hblank), fun _ => rfl, nofun⟩
  · obtain ⟨p, hp, hplace⟩ := exists_place_of_error hlength hstrip h
    have hnone : e.position ≠ none := by simp [hp]
    refine ⟨iff_of_false hnone fun hor => ?_, fun hnil => absurd hnil hnone, fun p' hp' => ?_⟩
    · exact hor.elim (Nat.not_lt.2 hlength) hstrip
    · obtain rfl : p = p' := Option.some.inj (hp.symm.trans hp')
      exact hplace

open Lexer in
/-- A sum without its second operand, and behind it a character that is foreign. -/
theorem parse_error_located_dollar :
    ∃ e, Equation.parse (.text "(t + ) $") = .error e ∧ e.position = some 7 ∧
      ¬ (500 < "(t + ) $".toList.length ∨ Text.strip "(t + ) $".toList = []) ∧
      (e.fragment = none ∧ 7 = "(t + ) $".toList.length ∨
        ∃ fragment, e.fragment = some fragment ∧ fragment ≠ "" ∧
          (fragment.toList <+: "(t + ) $".toList.drop 7 ∨
            fragment = "^" ∧ ['*', '*'] <+: "(t + ) $".toList.drop 7)) ∧
      e.complaint.isLexical = true := by
  have herror : (Equation.parse (.text "(t + ) $")).map (fun _ => ()) =
      .error ⟨.unexpectedCharacter '$', some 7, some "$"⟩ := by
    decide +kernel
  have hforeign : (tokenize "(t + ) $".toList).toBool = false := by decide +kernel
  have he := map_eq_error_iff.1 herror
  obtain ⟨hnone, -, hplace⟩ := parse_error_located he
  obtain ⟨-, hstands, hfirst⟩ := hplace 7 rfl
  obtain ⟨tokens, q, after, hlexed, rfl | hafter⟩ := exists_lexed 0 "(t + ) $".toList
  · rw [tokenize, (lexed_nil_iff_scan.1 hlexed).1] at hforeign
    cases hforeign
  · obtain ⟨-, -, hlexical⟩ := hfirst tokens q after hlexed hafter
    exact ⟨_, he, rfl, fun h => absurd (hnone.2 h) (by simp), hstands, hlexical⟩

end SpaceCurve
