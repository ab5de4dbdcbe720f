import SpaceCurve.Decimal.Numeral
import SpaceCurve.Proofs.Lexing

/-!
# Numbers of the lexicon as floats

The text of a number token is read once with `Numeral.decimal`, which takes any list of characters.
The conversion for loose text, `Numeral.float?`, refuses most texts, but none that the lexer makes a
number token of: `float?_eq_decimal` says that it reads these, and as the same float.

A number of the lexicon is digits, or digits with a point among them.  Nothing in it is padding, an
underscore, a sign or an exponent, so each stage of the conversion hands it on unchanged.  The first
stages do so with every text of plain ASCII (`prepare_of_graphic`).
-/

set_option autoImplicit false

namespace SpaceCurve
namespace Numeral

open Lexer (inNumber inNumber_eq_true_iff)

variable {text : List Char}

/-! ## Characters of a number -/

/-- A decimal digit or the point, by its code. -/
theorem toNat_of_inNumber {c : Char} (h : inNumber c = true) :
    c.toNat = 0x2e ∨ 0x30 ≤ c.toNat ∧ c.toNat ≤ 0x39 := by
  rcases inNumber_eq_true_iff.1 h with h | rfl
  · exact .inr (Char.isDigit_iff_toNat.1 h)
  · exact .inl rfl

theorem toAscii_of_ascii {c : Char} (h : c.toNat < 0x80) : toAscii c = c := by
  rw [toAscii, Text.decimalDigit?, if_pos h]
  by_cases hd : c.isDigit = true
  · have hrange := Char.isDigit_iff_toNat.1 hd
    have hback : 0x30 + (c.toNat - 0x30) = c.toNat := by
      have : '0'.toNat = 0x30 := rfl
      omega
    rw [if_pos hd]
    simp only
    rw [hback, Char.ofNat_toNat]
  · rw [if_neg hd]

/-- A character that is shown as it is in ASCII, other than the underscore. -/
structure Graphic (c : Char) : Prop where
  gt : 0x20 < c.toNat
  lt : c.toNat < 0x7f
  ne : c ≠ '_'

theorem graphic_of_inNumber {c : Char} (h : inNumber c = true) : Graphic c := by
  have hcode := toNat_of_inNumber h
  refine ⟨by omega, by omega, ?_⟩
  rintro rfl
  exact absurd h (by decide)

theorem Graphic.isPadding {c : Char} (h : Graphic c) : isPadding c = false := by
  have hgt := h.gt
  have hlt := h.lt
  have hblank : Text.isBlank c = false := by
    simp only [Text.isBlank, Bool.or_eq_false_iff, Bool.and_eq_false_iff, decide_eq_false_iff_not,
      beq_eq_false_iff_ne]
    omega
  rw [Numeral.isPadding, hblank, Bool.false_and]

/-! ## The stages of the conversion -/

theorem unpad_eq_self (h : ∀ c ∈ text, Graphic c) : unpad text = text := by
  have hstrip : ∀ {cs : List Char}, (∀ c ∈ cs, Graphic c) → cs.dropWhile isPadding = cs := by
    intro cs hcs
    cases cs with
    | nil => rfl
    | cons c rest =>
      rw [List.dropWhile_cons, (hcs c (by simp)).isPadding]
      rfl
  rw [unpad, hstrip h, hstrip (fun c hc => h c (List.mem_reverse.1 hc)), List.reverse_reverse]

theorem dropUnderscores_eq_self (h : ∀ c ∈ text, Graphic c) (afterDigit : Bool) :
    dropUnderscores afterDigit text = some text := by
  induction text generalizing afterDigit with
  | nil => rfl
  | cons c rest ih =>
    have hc : c ≠ '_' := (h c (by simp)).ne
    have hcons : dropUnderscores afterDigit (c :: rest) =
        (dropUnderscores c.isDigit rest).map (c :: ·) := by
      rw [dropUnderscores.eq_def]
      split
      · next heq => cases heq
      · next heq => exact absurd (List.cons.inj heq).1 hc
      · next heq =>
        cases heq
        rfl
    rw [hcons, ih fun d hd => h d (List.mem_cons_of_mem _ hd)]
    rfl

theorem splitSign_eq_self (h : ∀ c, text.head? = some c → inNumber c = true) :
    splitSign text = (false, text) := by
  rw [splitSign.eq_def]
  split
  · exact absurd (h '-' rfl) (by decide)
  · exact absurd (h '+' rfl) (by decide)
  · rfl

/-- **Only the sign is taken off a text of plain ASCII.** -/
theorem prepare_of_graphic (h : ∀ c ∈ text, Graphic c) : prepare text = some (splitSign text) := by
  have hascii : text.map toAscii = text := by
    have hcongr := List.map_congr_left fun c hc =>
      toAscii_of_ascii ((h c hc).lt.trans (show 0x7f < 0x80 by decide))
    rw [hcongr]
    exact List.map_id' text
  rw [prepare, unpad_eq_self h, hascii, dropUnderscores_eq_self h, Option.map_some]

theorem prepare_of_number (h : ∀ c ∈ text, inNumber c = true) :
    prepare text = some (false, text) := by
  rw [prepare_of_graphic fun c hc => graphic_of_inNumber (h c hc),
    splitSign_eq_self fun c hc => h c (List.mem_of_mem_head? hc)]

theorem toLower_of_inNumber {c : Char} (h : inNumber c = true) : c.toLower = c := by
  have hcode := toNat_of_inNumber h
  rw [Char.toLower]
  split
  · next hupper =>
    have hlow : 'A'.toNat ≤ c.toNat := hupper.1
    have hA : 'A'.toNat = 0x41 := rfl
    omega
  · rfl

/-- Without an `n`, a text is none of the words that stand for a float. -/
theorem ofList_toLower_ne (h : ∀ c ∈ text, c.toLower ≠ 'n') {word : String}
    (hword : 'n' ∈ word.toList) : String.ofList (text.map Char.toLower) ≠ word := by
  rintro rfl
  rw [String.toList_ofList] at hword
  obtain ⟨c, hc, hn⟩ := List.mem_map.1 hword
  exact h c hc hn

/-- What is no word is read as a number, with its sign. -/
theorem float?_eq_size? {negative : Bool} {body : List Char} {x : Float}
    (hprepare : prepare text = some (negative, body)) (hchars : ∀ c ∈ body, c.toLower ≠ 'n')
    (hsize : size? body = some x) :
    float? (String.ofList text) = some (if negative then -x else x) := by
  rw [float?, String.toList_ofList, hprepare]
  simp only [bind, Option.bind]
  split
  · next heq => exact absurd heq (ofList_toLower_ne hchars (by decide))
  · next heq => exact absurd heq (ofList_toLower_ne hchars (by decide))
  · next heq => exact absurd heq (ofList_toLower_ne hchars (by decide))
  · rw [hsize]
    rfl

/-! ## Digits and a point -/

/-- A run with at most one point is digits, or digits on both sides of the point. -/
theorem digits_or_point (h : ∀ c ∈ text, inNumber c = true) (hpoint : text.count '.' ≤ 1) :
    (∀ c ∈ text, c.isDigit = true) ∨ ∃ whole fraction, text = whole ++ '.' :: fraction ∧
      (∀ c ∈ whole, c.isDigit = true) ∧ ∀ c ∈ fraction, c.isDigit = true := by
  have hdigit : ∀ c ∈ text, c ≠ '.' → c.isDigit = true := fun c hc hne =>
    (inNumber_eq_true_iff.1 (h c hc)).resolve_right hne
  by_cases hmem : '.' ∈ text
  · obtain ⟨whole, fraction, rfl⟩ := List.append_of_mem hmem
    rw [List.count_append, List.count_cons_self] at hpoint
    have hwhole : '.' ∉ whole := List.count_eq_zero.1 (by omega)
    have hfraction : '.' ∉ fraction := List.count_eq_zero.1 (by omega)
    refine .inr ⟨whole, fraction, rfl, fun c hc => ?_, fun c hc => ?_⟩
    · exact hdigit c (by simp [hc]) fun heq => hwhole (heq ▸ hc)
    · exact hdigit c (by simp [hc]) fun heq => hfraction (heq ▸ hc)
  · exact .inl fun c hc => hdigit c hc fun heq => hmem (heq ▸ hc)

/-- Digits are split from what does not go on with one. -/
theorem spanDigits_append {digits r : List Char} (h : ∀ c ∈ digits, c.isDigit = true)
    (hr : ∀ c, r.head? = some c → c.isDigit = false) :
    spanDigits (digits ++ r) = (digits, r) := by
  obtain ⟨htake, hdrop⟩ := Lexer.span_append h hr
  rw [spanDigits, List.span_eq_takeWhile_dropWhile, htake, hdrop]

theorem spanDigits_eq_self {digits : List Char} (h : ∀ c ∈ digits, c.isDigit = true) :
    spanDigits digits = (digits, []) := by
  have hspan := spanDigits_append (r := []) h (by simp)
  rwa [List.append_nil] at hspan

/-- Digits are cut off in front of a point, and not before the end when there is none. -/
theorem cut_append {digits r : List Char} (h : ∀ c ∈ digits, c.isDigit = true)
    (hr : r = [] ∨ ∃ fraction, r = '.' :: fraction) :
    (digits ++ r).takeWhile (· != '.') = digits ∧ (digits ++ r).dropWhile (· != '.') = r := by
  refine Lexer.span_append (fun c hc => bne_iff_ne.2 ?_) fun c hc => ?_
  · rintro rfl
    exact absurd (h '.' hc) (by decide)
  · rcases hr with rfl | ⟨fraction, rfl⟩
    · cases hc
    · obtain rfl : '.' = c := Option.some.inj hc
      rfl

/-- **The size of a number is its value.** -/
theorem size?_eq_decimal (h : ∀ c ∈ text, inNumber c = true) (hpoint : text.count '.' ≤ 1)
    (hne : text ≠ []) (hdot : text ≠ ['.']) : size? text = some (decimal text) := by
  rcases digits_or_point h hpoint with hdigits | ⟨whole, fraction, rfl, hwhole, hfraction⟩
  · have hcut := cut_append hdigits (.inl rfl)
    rw [List.append_nil] at hcut
    rw [size?, decimal, spanDigits_eq_self hdigits, hcut.1, hcut.2]
    simp [hne, exponent?]
  · have hcut := cut_append hwhole (.inr ⟨fraction, rfl⟩)
    have hspan := spanDigits_append (r := '.' :: fraction) hwhole fun c hc => by
      obtain rfl : '.' = c := Option.some.inj hc
      rfl
    have hsome : ¬ (whole = [] ∧ fraction = []) := by
      rintro ⟨rfl, rfl⟩
      exact hdot rfl
    rw [size?, decimal, hspan, hcut.1, hcut.2]
    simp [spanDigits_eq_self hfraction, hsome, exponent?]

/-- **What the lexer makes a number is read as a float**, and as the same one. -/
theorem float?_eq_decimal (h : Lexer.Spells (.number text) text) :
    float? (String.ofList text) = some (decimal text) := by
  cases h with
  | number digits point ne_nil ne_point =>
    have hchars : ∀ c ∈ text, inNumber c = true := fun c hc => inNumber_eq_true_iff.2 (digits c hc)
    have hlower : ∀ c ∈ text, c.toLower ≠ 'n' := by
      intro c hc hn
      rw [toLower_of_inNumber (hchars c hc)] at hn
      exact absurd (hn ▸ hchars c hc) (by decide)
    exact float?_eq_size? (prepare_of_number hchars) hlower
      (size?_eq_decimal hchars point ne_nil ne_point)

end Numeral
end SpaceCurve
