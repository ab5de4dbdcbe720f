import SpaceCurve.Proofs.Spacing

/-!
# How deep the parentheses of an equation go

The count of parentheses is made before an equation is parsed, and turns nothing away that would
parse.  That the parentheses match is known from `isBalanced_of_parse`; how deep they go is another
matter, since the grammar does not count parentheses but constructs, and minus signs and powers are
constructs as well.  What relates the two is that a pair of parentheses encloses its inside by one
construct more, so that at any lexeme no more parentheses are open than constructs.

## What is here

* `Leads limit depth lexemes depth'` — with `depth` parentheses open, the lexemes lead to `depth'` of
  them and never to more than `limit`.
* `Leads.exists_scan` — the count of characters goes where the lexemes lead, however they are written.
* `leads_of_derives` — a phrase leads back to where it begins, or one further if it is a call that is
  still open.
* `balance_of_parse` — what the count shows for an equation.
-/

set_option autoImplicit false

namespace SpaceCurve
namespace Balance

open Lexer (Written Spells)

/-! ## Lexemes and open parentheses -/

/-- With `depth` parentheses open, the lexemes lead to `depth'` open ones.  No more than `limit` are
ever open, and no closing one is stray. -/
inductive Leads (limit : Nat) : Nat → List Lexeme → Nat → Prop
  | nil (depth : Nat) : Leads limit depth [] depth
  | opening {depth depth' : Nat} {rest : List Lexeme} (hdepth : depth + 1 ≤ limit)
      (h : Leads limit (depth + 1) rest depth') : Leads limit depth (.opening :: rest) depth'
  | closing {depth depth' : Nat} {rest : List Lexeme} (h : Leads limit depth rest depth') :
      Leads limit (depth + 1) (.closing :: rest) depth'
  | other {depth depth' : Nat} {l : Lexeme} {rest : List Lexeme} (hl : marks l = [])
      (h : Leads limit depth rest depth') : Leads limit depth (l :: rest) depth'

section

variable {limit depth depth' depth'' : Nat} {l r : List Lexeme}

theorem Leads.append (h : Leads limit depth l depth') (h' : Leads limit depth' r depth'') :
    Leads limit depth (l ++ r) depth'' := by
  induction h with
  | nil => exact h'
  | opening hdepth _ ih => exact .opening hdepth (ih h')
  | closing _ ih => exact .closing (ih h')
  | other hl _ ih => exact .other hl (ih h')

/-- Operators and commas join what they stand between. -/
theorem Leads.join {x : Lexeme} (h : Leads limit depth l depth') (hx : marks x = [])
    (h' : Leads limit depth' r depth'') : Leads limit depth (l ++ x :: r) depth'' :=
  h.append (.other hx h')

/-! ## The count of characters -/

/-- **The count goes where the lexemes lead**, and the greatest depth stays within the limit. -/
theorem Leads.exists_scan {lexemes : List Lexeme} {text : List Char} {m : Nat}
    (h : Leads limit depth lexemes depth') (hw : Written lexemes text) (hm : m ≤ limit) (p : Nat) :
    ∃ m' ≤ limit, scan depth m p text = ⟨m', depth', none⟩ := by
  induction hw generalizing depth m p with
  | nil =>
    cases h
    exact ⟨m, hm, rfl⟩
  | @blank lexemes c text hc _ ih =>
    obtain ⟨ho, hc⟩ := isBlank_ne hc
    rw [scan_other ho hc]
    exact ih h hm (p + 1)
  | @lexeme lexemes x run text hs _ ih =>
    cases h with
    | opening hdepth h =>
      cases hs
      exact ih h (max_le hm hdepth) (p + 1)
    | closing h =>
      cases hs
      exact ih h hm (p + 1)
    | other hl h =>
      rw [scan_append_of_ne (ne_of_spells hs hl)]
      exact ih h hm (p + run.length)

end

/-! ## Phrases of the grammar -/

/-- **A phrase leads back to where it begins.**  When it begins no more parentheses are open than
constructs are around it, and this stays so. -/
theorem leads_of_derives {p : Phrase} {d limit : Nat} {w : List Enclosed} {t : Tree}
    (h : Derives p d w t) (hw : Bounded limit w) {depth : Nat} (hd : depth ≤ d) :
    Leads limit depth (w.map Enclosed.lexeme) (depth + opened p) := by
  induction h generalizing depth with
  | ofTerm _ ih => exact ih hw hd
  | ofUnary _ ih => exact ih hw hd
  | ofPower _ ih => exact ih hw hd
  | ofPrimary _ ih => exact ih hw hd
  | number => exact .other rfl (.nil depth)
  | parameter => exact .other rfl (.nil depth)
  | constant => exact .other rfl (.nil depth)
  | sum _ _ _ ihl ihr =>
    obtain ⟨hl, hr⟩ := bounded_append.1 hw
    rw [List.map_append]
    exact (ihl hl hd).join rfl (ihr (bounded_cons.1 hr).2 hd)
  | product _ _ _ ihl ihr =>
    obtain ⟨hl, hr⟩ := bounded_append.1 hw
    rw [List.map_append]
    exact (ihl hl hd).join rfl (ihr (bounded_cons.1 hr).2 hd)
  | raised _ _ ihl ihr =>
    obtain ⟨hl, hr⟩ := bounded_append.1 hw
    rw [List.map_append]
    exact (ihl hl hd).join rfl (ihr (bounded_cons.1 hr).2 (Nat.le_succ_of_le hd))
  | minus _ ih => exact .other rfl (ih (bounded_cons.1 hw).2 (Nat.le_succ_of_le hd))
  | group h ih =>
    have hinner := (bounded_append.1 (bounded_cons.1 hw).2).1
    have hlimit := (Nat.succ_le_succ hd).trans (h.le_of_bounded hinner)
    rw [List.map_append]
    exact .opening hlimit ((ih hinner (Nat.succ_le_succ hd)).append (.closing (.nil depth)))
  | firstArgument f h ih =>
    have hinner := (bounded_cons.1 (bounded_cons.1 hw).2).2
    have hlimit := (Nat.succ_le_succ hd).trans (h.le_of_bounded hinner)
    exact .other rfl (.opening hlimit (ih hinner (Nat.succ_le_succ hd)))
  | nextArgument _ _ ihl ihr =>
    obtain ⟨hl, hr⟩ := bounded_append.1 hw
    rw [List.map_append]
    exact (ihl hl hd).join rfl (ihr (bounded_cons.1 hr).2 (Nat.succ_le_succ hd))
  | called _ _ ih =>
    rw [List.map_append]
    exact (ih (bounded_append.1 hw).1 hd).append (.closing (.nil depth))

/-! ## Texts -/

/-- The balance of a text is taken character by character. -/
theorem ofValue_text (s : String) : ofValue (.text s) = .ok (ofText s.toList) := by
  have hmark : ∀ c : Char, mark (.text (String.singleton c)) = c := fun c => by
    rw [mark, String.toList_singleton]
  show Except.ok (ofText ((s.toList.map fun c => .text (String.singleton c)).map mark)) = _
  simp only [List.map_map, Function.comp_def, hmark, List.map_id']

end Balance

/-- **The count of parentheses turns no equation away.**  None of them is stray, none stays open, the
check on them passes, and they go no deeper than 64. -/
theorem balance_of_parse {source : Value} {e : Equation} (h : Equation.parse source = .ok e) :
    ∃ m ≤ 64, Balance.ofValue source = .ok ⟨m, 0, none⟩ ∧
      Balance.isBalanced ⟨m, 0, none⟩ = true ∧
      Balance.report ⟨m, 0, none⟩ = Check.report true (Check.passedText .parentheses)
        [("max_depth", .int m), ("unclosed", .int 0), ("first_unmatched_close", .null)] := by
  obtain ⟨s, tokens, rfl, -, htokens, w, hw, hderives, hbounded⟩ := exists_sentence_of_parse h
  have hwritten := (Lexer.tokenize_eq_ok_iff.1 htokens).written
  have hleads := Balance.leads_of_derives hderives hbounded (Nat.zero_le 0)
  rw [hw] at hleads
  obtain ⟨m, hm, hscan⟩ := hleads.exists_scan hwritten (Nat.zero_le _) 0
  exact ⟨m, hm, by rw [Balance.ofValue_text, Balance.ofText, hscan]; rfl, rfl, rfl⟩

/-- The parameter in sixty-four pairs of parentheses. -/
def wrapped : List Char := List.replicate 64 '(' ++ 't' :: List.replicate 64 ')'

/-- An equation may have parentheses as deep as that. -/
theorem balance_of_parse_wrapped :
    ∃ e, Equation.parse (.text (String.ofList wrapped)) = .ok e ∧
      Balance.ofValue (.text (String.ofList wrapped)) = .ok ⟨64, 0, none⟩ ∧
      Balance.isBalanced ⟨64, 0, none⟩ = true := by
  have hparse : (parseText wrapped).map Tree.size = .ok 1 := by decide +kernel
  obtain ⟨tree, htree, -⟩ := map_eq_ok_iff.1 hparse
  have he := Equation.parse_ofList htree
  obtain ⟨m, -, hbalance, hpasses, -⟩ := balance_of_parse he
  have hdepth : Balance.ofValue (.text (String.ofList wrapped)) = .ok ⟨64, 0, none⟩ := by
    rw [Balance.ofValue_text, String.toList_ofList]
    exact congrArg Except.ok (by decide +kernel)
  obtain rfl : 64 = m := (Balance.mk.inj (Except.ok.inj (hdepth.symm.trans hbalance))).1
  exact ⟨_, he, hbalance, hpasses⟩

end SpaceCurve
