import SpaceCurve.Proofs.Lexing
import SpaceCurve.Proofs.Parsing
import SpaceCurve.Validation

/-!
# What parses is present and balanced

Validation looks at a source three times: is there anything in it, do its parentheses match, does
it parse.  `isPresent_of_parse` and `isBalanced_of_parse` say that the first two looks turn nothing
away that would have parsed.

The count of parentheses runs over characters and the grammar over lexemes.  In between stands
`marks`, the parentheses of a lexeme: the count does not change when everything else is taken out
of a text, and a phrase of the grammar leaves it where it was.
-/

set_option autoImplicit false

namespace SpaceCurve
namespace Balance

/-! ## Counting -/

theorem scan_opening (depth m p : Nat) (rest : List Char) :
    scan depth m p ('(' :: rest) = scan (depth + 1) (max m (depth + 1)) (p + 1) rest := rfl

theorem scan_closing (depth m p : Nat) (rest : List Char) :
    scan (depth + 1) m p (')' :: rest) = scan depth m (p + 1) rest := rfl

theorem scan_other {c : Char} (ho : c ≠ '(') (hc : c ≠ ')') (depth m p : Nat)
    (rest : List Char) : scan depth m p (c :: rest) = scan depth m (p + 1) rest := by
  rw [scan.eq_def]
  simp [ho, hc]

/-- Characters that are no parentheses only move the position on. -/
theorem scan_append_of_ne {run : List Char} (h : ∀ c ∈ run, c ≠ '(' ∧ c ≠ ')') (depth m p : Nat)
    (rest : List Char) : scan depth m p (run ++ rest) = scan depth m (p + run.length) rest := by
  induction run generalizing p with
  | nil => rfl
  | cons c run ih =>
    obtain ⟨ho, hc⟩ := h c (List.mem_cons_self ..)
    rw [List.cons_append, scan_other ho hc, ih fun d hd => h d (List.mem_cons_of_mem _ hd),
      List.length_cons, Nat.add_right_comm, Nat.add_assoc]

/-- Neither the position nor the greatest depth so far has a say in the outcome. -/
theorem isBalanced_scan (depth m n p q : Nat) (text : List Char) :
    (scan depth m p text).isBalanced = (scan depth n q text).isBalanced := by
  induction text generalizing depth m n p q with
  | nil => rfl
  | cons c rest ih =>
    by_cases ho : c = '('
    · subst ho
      rw [scan_opening, scan_opening]
      exact ih _ _ _ _ _
    · by_cases hc : c = ')'
      · subst hc
        cases depth with
        | zero => rfl
        | succ depth =>
          rw [scan_closing, scan_closing]
          exact ih _ _ _ _ _
      · rw [scan_other ho hc, scan_other ho hc]
        exact ih _ _ _ _ _

/-- Whether the parentheses match when `depth` of them are open before the text. -/
def closes (depth : Nat) (text : List Char) : Bool := (scan depth 0 0 text).isBalanced

theorem closes_opening (depth : Nat) (rest : List Char) :
    closes depth ('(' :: rest) = closes (depth + 1) rest := by
  rw [closes, scan_opening]
  exact isBalanced_scan _ _ _ _ _ _

theorem closes_closing (depth : Nat) (rest : List Char) :
    closes (depth + 1) (')' :: rest) = closes depth rest := by
  rw [closes, scan_closing]
  exact isBalanced_scan _ _ _ _ _ _

/-- Characters that are no parentheses do not count. -/
theorem closes_append {run : List Char} (h : ∀ c ∈ run, c ≠ '(' ∧ c ≠ ')') (depth : Nat)
    (rest : List Char) : closes depth (run ++ rest) = closes depth rest := by
  rw [closes, scan_append_of_ne h]
  exact isBalanced_scan _ _ _ _ _ _

/-- That no character of a run is a parenthesis can be tested. -/
theorem ne_of_all {run : List Char} (h : run.all (fun c => c != '(' && c != ')') = true) :
    ∀ c ∈ run, c ≠ '(' ∧ c ≠ ')' := by
  simpa using h

/-! ## The parentheses of lexemes -/

/-- The parentheses that a lexeme is. -/
def marks : Lexeme → List Char
  | .opening => ['(']
  | .closing => [')']
  | _ => []

open Lexer in
/-- The spelling of a lexeme that is no parenthesis has no parenthesis in it. -/
theorem ne_of_spells {x : Lexeme} {run : List Char} (h : Spells x run) (hx : marks x = []) :
    ∀ c ∈ run, c ≠ '(' ∧ c ≠ ')' := by
  cases h with
  | number digits =>
    intro c hc
    rcases digits c hc with hc | rfl
    · constructor <;> (rintro rfl; exact absurd hc (by decide))
    · decide
  | name s =>
    refine ne_of_all ?_
    rcases s with _ | c | f
    · rfl
    · cases c <;> rfl
    · cases f <;> rfl
  | sign o =>
    refine ne_of_all ?_
    cases o <;> rfl
  | stars => exact ne_of_all rfl
  | opening => cases hx
  | closing => cases hx
  | comma => exact ne_of_all rfl

open Lexer in
/-- A spelling counts as its lexeme. -/
theorem closes_of_spells {l : Lexeme} {run : List Char} (h : Spells l run) (depth : Nat)
    (rest : List Char) : closes depth (run ++ rest) = closes depth (marks l ++ rest) := by
  cases l with
  | opening => cases h; rfl
  | closing => cases h; rfl
  | _ => exact closes_append (ne_of_spells h rfl) depth rest

theorem isBlank_ne {c : Char} (h : Text.isBlank c = true) : c ≠ '(' ∧ c ≠ ')' := by
  constructor <;> (rintro rfl; exact absurd h (by decide))

/-- A text counts as its lexemes. -/
theorem closes_of_lexed {p q : Nat} {text after : List Char} {tokens : List Token}
    (h : Lexer.Lexed p text tokens q after) (depth : Nat) :
    closes depth text = closes depth ((tokens.map Token.lexeme).flatMap marks ++ after) := by
  induction h generalizing depth with
  | stop => rfl
  | @blank p q c tail after tokens hc h ih =>
    have hone : ∀ d ∈ [c], d ≠ '(' ∧ d ≠ ')' := by simpa using isBlank_ne hc
    rw [← ih]
    exact closes_append hone depth tail
  | @lexeme p q l run tail after tokens hs he h ih =>
    rw [closes_of_spells hs, List.map_cons, List.flatMap_cons, List.append_assoc]
    cases l with
    | number text => exact ih depth
    | symbol s => exact ih depth
    | operator o => exact ih depth
    | comma => exact ih depth
    | opening =>
      simp only [marks, List.singleton_append, closes_opening]
      exact ih (depth + 1)
    | closing =>
      cases depth with
      | zero =>
        -- the parenthesis closes nothing, and both counts end here
        rfl
      | succ depth =>
        simp only [marks, List.singleton_append, closes_closing]
        exact ih depth

/-! ## Phrases of the grammar -/

/-- How many parentheses a phrase leaves open. -/
def opened : Phrase → Nat
  | .call _ => 1
  | _ => 0

/-- **A phrase closes the parentheses that it opens**, but for that of a call which is to go on. -/
theorem closes_of_derives {p : Phrase} {d : Nat} {w : List Enclosed} {t : Tree}
    (h : Derives p d w t) (depth : Nat) (rest : List Char) :
    closes depth ((w.map Enclosed.lexeme).flatMap marks ++ rest) =
      closes (depth + opened p) rest := by
  induction h generalizing depth rest with
  | ofTerm _ ih => exact ih depth rest
  | ofUnary _ ih => exact ih depth rest
  | ofPower _ ih => exact ih depth rest
  | ofPrimary _ ih => exact ih depth rest
  | minus _ ih => exact ih depth rest
  | number => rfl
  | parameter => rfl
  | constant => rfl
  | sum _ _ _ ihl ihr =>
    rw [List.map_append, List.flatMap_append, List.append_assoc, ihl]
    exact ihr depth rest
  | product _ _ _ ihl ihr =>
    rw [List.map_append, List.flatMap_append, List.append_assoc, ihl]
    exact ihr depth rest
  | raised _ _ ihl ihr =>
    rw [List.map_append, List.flatMap_append, List.append_assoc, ihl]
    exact ihr depth rest
  | @group d w a _ ih =>
    rw [List.map_append, List.flatMap_append, List.append_assoc]
    calc closes depth ('(' :: ((w.map Enclosed.lexeme).flatMap marks ++ (')' :: rest)))
        = closes (depth + 1) ((w.map Enclosed.lexeme).flatMap marks ++ (')' :: rest)) :=
          closes_opening _ _
      _ = closes (depth + 1) (')' :: rest) := ih _ _
      _ = closes depth rest := closes_closing _ _
  | firstArgument f _ ih => exact (closes_opening _ _).trans (ih (depth + 1) rest)
  | nextArgument _ _ ihl ihr =>
    rw [List.map_append, List.flatMap_append, List.append_assoc, ihl]
    exact ihr (depth + 1) rest
  | called _ _ ih =>
    rw [List.map_append, List.flatMap_append, List.append_assoc, ih]
    exact closes_closing _ _

end Balance

/-! ## What parses -/

theorem Equation.parse_ofList {text : List Char} {tree : Tree} (h : parseText text = .ok tree) :
    Equation.parse (.text (String.ofList text)) = .ok ⟨String.ofList text, tree⟩ := by
  rw [Equation.parse, String.toList_ofList, h]
  rfl

/-- What parses is a text of some tokens that the grammar derives. -/
theorem exists_sentence_of_parse {source : Value} {e : Equation}
    (h : Equation.parse source = .ok e) :
    ∃ s tokens, source = .text s ∧ Text.strip s.toList ≠ [] ∧ tokenize s.toList = .ok tokens ∧
      IsSentence Lexicon.maxDepth (tokens.map Token.lexeme) e.root := by
  cases source with
  | text s =>
    cases htext : parseText s.toList with
    | error fault =>
      rw [Equation.parse, htext] at h
      cases h
    | ok tree =>
      rw [Equation.parse, htext] at h
      obtain ⟨-, hstrip, tokens, htokens, hsentence⟩ := parseText_eq_ok_iff.1 htext
      cases h
      exact ⟨s, tokens, rfl, hstrip, htokens, hsentence⟩
  | _ => cases h

/-- **No blank text parses**, and nothing that is no text. -/
theorem isPresent_of_parse {source : Value} {e : Equation} (h : Equation.parse source = .ok e) :
    isPresent source = true := by
  obtain ⟨s, tokens, rfl, hstrip, -⟩ := exists_sentence_of_parse h
  exact bne_iff_ne.2 hstrip

/-- **No text with unbalanced parentheses parses.** -/
theorem isBalanced_of_parse {source : Value} {e : Equation} (h : Equation.parse source = .ok e) :
    Validation.isBalanced source = true := by
  obtain ⟨s, tokens, rfl, -, htokens, w, hw, hderives, -⟩ := exists_sentence_of_parse h
  have hlexed := Lexer.tokenize_eq_ok_iff.1 htokens
  have hphrase := Balance.closes_of_derives hderives 0 []
  rw [hw] at hphrase
  exact (Balance.closes_of_lexed hlexed 0).trans hphrase

end SpaceCurve
