/-!
# Blank characters

White space as Unicode understands it, with the four ASCII separators `U+001C` to `U+001F` and
without zero-width characters. Equations ignore it between tokens, numerals at both ends.
-/

set_option autoImplicit false

namespace SpaceCurve
namespace Text

/-- Whether the character is white space. -/
def isBlank (c : Char) : Bool :=
  let code := c.toNat
  (0x09 ≤ code && code ≤ 0x0d) || (0x1c ≤ code && code ≤ 0x20) || code == 0x85 || code == 0xa0 ||
    code == 0x1680 || (0x2000 ≤ code && code ≤ 0x200a) || code == 0x2028 || code == 0x2029 ||
    code == 0x202f || code == 0x205f || code == 0x3000

/-- The text without white space at either end. -/
def strip (text : List Char) : List Char :=
  ((text.dropWhile isBlank).reverse.dropWhile isBlank).reverse

theorem dropWhile_isBlank_eq_nil_iff {text : List Char} :
    text.dropWhile isBlank = [] ↔ ∀ c ∈ text, isBlank c = true := by
  induction text with
  | nil => simp
  | cons c rest ih =>
    cases hc : isBlank c with
    | true => simp [hc, ih]
    | false => simp [hc]

theorem head_dropWhile_isBlank (text : List Char) (c : Char) (rest : List Char)
    (h : text.dropWhile isBlank = c :: rest) : isBlank c = false := by
  induction text with
  | nil => simp at h
  | cons d tail ih =>
    cases hd : isBlank d with
    | true => exact ih (by simpa [hd] using h)
    | false =>
      simp only [List.dropWhile_cons, hd, Bool.false_eq_true, if_false, List.cons.injEq] at h
      exact h.1 ▸ hd

/-- Nothing is left of a text that is blank throughout. -/
theorem strip_eq_nil_iff {text : List Char} : strip text = [] ↔ ∀ c ∈ text, isBlank c = true := by
  rw [← dropWhile_isBlank_eq_nil_iff, strip, List.reverse_eq_nil_iff, dropWhile_isBlank_eq_nil_iff]
  cases h : text.dropWhile isBlank with
  | nil => simp
  | cons c rest => simp [head_dropWhile_isBlank text c rest h]

end Text
end SpaceCurve
