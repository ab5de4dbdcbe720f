import SpaceCurve.Proofs.Numerals
import SpaceCurve.Proofs.ShortestDigits

/-!
# The text of a float

The shortest digits of a float are written with a point, or with an exponent when the point would
stand far off.

## What is here

* `Written text n p` — the text is a numeral in one of these two forms, and stands for `n · 10^p`.
* `exists_written` — what is written for a float is such a numeral, and the float is its value.
* `float?_text` — **the text of a float is read as the float**, whatever the float is.
-/

set_option autoImplicit false

namespace SpaceCurve

namespace Numeral

/-! ## Digits -/

/-- The number that digits make. -/
def numberOf (ds : List Char) : Nat := ofDigits (ds.map digitValue)

theorem numberOf_eq {ds : List Char} (h : ∀ c ∈ ds, c.isDigit = true) :
    numberOf ds = Nat.ofDigitChars 10 ds 0 := by
  suffices hfold : ∀ n, (ds.map digitValue).foldl (fun n d => 10 * n + d) n =
      Nat.ofDigitChars 10 ds n from hfold 0
  induction ds with
  | nil => exact fun n => rfl
  | cons c rest ih =>
    intro n
    obtain ⟨hc, hrest⟩ := List.forall_mem_cons.1 h
    have hdigit : digitValue c = c.toNat - '0'.toNat := by
      rw [digitValue, if_pos hc]
      rfl
    rw [List.map_cons, List.foldl_cons, ih hrest, hdigit, Nat.ofDigitChars_cons]

theorem numberOf_append {ds es : List Char} (hds : ∀ c ∈ ds, c.isDigit = true)
    (hes : ∀ c ∈ es, c.isDigit = true) :
    numberOf (ds ++ es) = numberOf ds * 10 ^ es.length + numberOf es := by
  rw [numberOf_eq (List.forall_mem_append.2 ⟨hds, hes⟩), numberOf_eq hds, numberOf_eq hes,
    Nat.ofDigitChars_append, Nat.ofDigitChars_eq_ofDigitChars_zero, mul_comm]

/-- A number is shorter than its digits allow. -/
theorem numberOf_lt {ds : List Char} (h : ∀ c ∈ ds, c.isDigit = true) :
    numberOf ds < 10 ^ ds.length := by
  induction ds using List.reverseRecOn with
  | nil => exact Nat.one_pos
  | append_singleton ds c ih =>
    obtain ⟨hds, hc⟩ := List.forall_mem_append.1 h
    have hdigit : numberOf [c] < 10 := by
      have hrange := Char.isDigit_iff_toNat.1 (hc c (List.mem_singleton_self c))
      have hvalue : numberOf [c] = c.toNat - '0'.toNat := by
        rw [numberOf_eq hc, Nat.ofDigitChars_cons, Nat.ofDigitChars_nil, mul_zero, zero_add]
      have hzero : '0'.toNat = 48 := rfl
      have hnine : '9'.toNat = 57 := rfl
      omega
    have hlt := ih hds
    rw [numberOf_append hds hc, List.length_append, List.length_singleton, pow_one,
      pow_succ]
    omega

theorem numberOf_zero_cons (ds : List Char) : numberOf ('0' :: ds) = numberOf ds := rfl

theorem isDigit_of_mem_replicate {n : Nat} : ∀ c ∈ List.replicate n '0', c.isDigit = true := by
  intro c hc
  rw [List.eq_of_mem_replicate hc]
  rfl

theorem numberOf_replicate (n : Nat) : numberOf (List.replicate n '0') = 0 := by
  rw [numberOf_eq isDigit_of_mem_replicate, Nat.ofDigitChars_replicate_zero, mul_zero]

theorem isDigit_of_mem_natDigits {n : Nat} : ∀ c ∈ Shortest.natDigits n, c.isDigit = true :=
  fun _ => Nat.isDigit_of_mem_toDigits (by decide) (by decide)

theorem numberOf_natDigits (n : Nat) : numberOf (Shortest.natDigits n) = n := by
  rw [numberOf_eq isDigit_of_mem_natDigits]
  exact Nat.ofDigitChars_ten_toDigits

/-- The digits of a number other than zero do not begin with a zero. -/
theorem exists_natDigits {n : Nat} (hn : 0 < n) :
    ∃ c rest, Shortest.natDigits n = c :: rest ∧ c ≠ '0' := by
  induction n using Nat.strong_induction_on with
  | _ n ih =>
    rw [Shortest.natDigits, Nat.toDigits_eq_if (by decide)]
    split
    · next hlt =>
      refine ⟨n.digitChar, [], rfl, ?_⟩
      intro hzero
      have hback := Nat.toNat_digitChar_sub_48_of_lt_ten hlt
      rw [hzero] at hback
      exact hn.ne hback
    · next hge =>
      obtain ⟨c, rest, hds, hc⟩ := ih (n / 10) (by omega) (by omega)
      rw [Shortest.natDigits] at hds
      exact ⟨c, _, by rw [hds]; rfl, hc⟩

/-! ## Numerals in writing -/

/-- Digits before the point: no zero in front, unless it is the only one. -/
structure IsWhole (ds : List Char) : Prop where
  digits : ∀ c ∈ ds, c.isDigit = true
  head : ds = ['0'] ∨ ∃ c rest, ds = c :: rest ∧ c ≠ '0'

/-- A numeral that is no integer: with a point, or with an exponent behind its digits.  It stands
for a number times a power of ten. -/
inductive Written : List Char → Nat → Int → Prop
  | point {whole fraction : List Char} (whole_ok : IsWhole whole) (ne_nil : fraction ≠ [])
      (digits : ∀ c ∈ fraction, c.isDigit = true) :
      Written (whole ++ '.' :: fraction) (numberOf (whole ++ fraction)) (-fraction.length)
  | exponent {c : Char} {fraction : List Char} (head : c.isDigit = true) (ne_zero : c ≠ '0')
      (digits : ∀ d ∈ fraction, d.isDigit = true) (x : Int) :
      Written (c :: ((if fraction.isEmpty then [] else '.' :: fraction) ++
          (Shortest.exponentText x).toList)) (numberOf (c :: fraction)) (x - fraction.length)

/-- An exponent is a sign and digits. -/
theorem exists_exponentText (x : Int) : ∃ sign ds,
    (Shortest.exponentText x).toList = 'e' :: sign :: ds ∧ ds ≠ [] ∧
      (∀ c ∈ ds, c.isDigit = true) ∧
      (sign = '-' ∧ x = -(numberOf ds : Int) ∨ sign = '+' ∧ x = numberOf ds) := by
  obtain ⟨ds, hds⟩ : ∃ ds, ds = if (Shortest.natDigits x.natAbs).length < 2 then
      '0' :: Shortest.natDigits x.natAbs else Shortest.natDigits x.natAbs := ⟨_, rfl⟩
  have hdigits : ∀ c ∈ ds, c.isDigit = true := by
    rw [hds]
    split
    · exact List.forall_mem_cons.2 ⟨rfl, isDigit_of_mem_natDigits⟩
    · exact isDigit_of_mem_natDigits
  have hvalue : numberOf ds = x.natAbs := by
    rw [hds]
    split
    · rw [numberOf_zero_cons, numberOf_natDigits]
    · exact numberOf_natDigits _
  have hne : ds ≠ [] := by
    rw [hds]
    split
    · exact List.cons_ne_nil _ _
    · exact Nat.toDigits_ne_nil
  refine ⟨if x < 0 then '-' else '+', ds, ?_, hne, hdigits, ?_⟩
  · rw [Shortest.exponentText, ← hds]
    split <;> simp
  · split
    · exact .inl ⟨rfl, by omega⟩
    · exact .inr ⟨rfl, by omega⟩

/-! ## Reading a numeral -/

section

variable {text : List Char} {n : Nat} {p : Int}

/-- The text is ASCII without an `n`. -/
theorem Written.chars (h : Written text n p) :
    ∀ c ∈ text, Lexer.inNumber c = true ∨ c = 'e' ∨ c = '-' ∨ c = '+' := by
  have hdigit : ∀ {ds : List Char}, (∀ c ∈ ds, c.isDigit = true) → ∀ c ∈ ds,
      Lexer.inNumber c = true ∨ c = 'e' ∨ c = '-' ∨ c = '+' := fun hds c hc =>
    .inl (Lexer.inNumber_eq_true_iff.2 (.inl (hds c hc)))
  have hpoint : Lexer.inNumber '.' = true := rfl
  cases h with
  | point whole_ok _ digits =>
    exact List.forall_mem_append.2 ⟨hdigit whole_ok.digits,
      List.forall_mem_cons.2 ⟨.inl hpoint, hdigit digits⟩⟩
  | @exponent c fraction head _ digits x =>
    obtain ⟨sign, ds, htext, -, hds, hsign⟩ := exists_exponentText x
    rw [htext]
    refine List.forall_mem_cons.2 ⟨.inl (Lexer.inNumber_eq_true_iff.2 (.inl head)),
      List.forall_mem_append.2 ⟨?_, List.forall_mem_cons.2 ⟨.inr (.inl rfl),
        List.forall_mem_cons.2 ⟨?_, hdigit hds⟩⟩⟩⟩
    · split
      · exact List.forall_mem_nil _
      · exact List.forall_mem_cons.2 ⟨.inl hpoint, hdigit digits⟩
    · exact .inr (.inr (hsign.imp And.left And.left))

/-- The text begins with a digit. -/
theorem Written.exists_cons (h : Written text n p) :
    ∃ c rest, text = c :: rest ∧ c.isDigit = true := by
  cases h with
  | point whole_ok _ _ =>
    obtain rfl | ⟨c, rest, rfl, -⟩ := whole_ok.head
    · exact ⟨'0', _, rfl, rfl⟩
    · exact ⟨c, _, rfl, whole_ok.digits c (List.mem_cons_self ..)⟩
  | exponent head _ _ _ => exact ⟨_, _, rfl, head⟩

theorem exponent?_exponentText (x : Int) : exponent? (Shortest.exponentText x).toList = some x := by
  obtain ⟨sign, ds, htext, hne, hds, ⟨rfl, hx⟩ | ⟨rfl, hx⟩⟩ := exists_exponentText x
  all_goals
    have hall : ds.all Char.isDigit = true := List.all_eq_true.2 hds
    rw [htext, hx]
    simp [exponent?, splitSign, hne, hall, numberOf]

/-- **A numeral in writing is read as its value.** -/
theorem Written.size? (h : Written text n p) : size? text = some (scientific n p) := by
  cases h with
  | @point whole fraction whole_ok ne_nil digits =>
    have hspan := spanDigits_append (r := '.' :: fraction) whole_ok.digits fun c hc => by
      obtain rfl : '.' = c := Option.some.inj hc
      rfl
    rw [Numeral.size?, hspan]
    simp [spanDigits_eq_self digits, ne_nil, exponent?, numberOf]
  | @exponent c fraction head _ digits x =>
    obtain ⟨sign, ds, htext, -⟩ := exists_exponentText x
    have hexp := exponent?_exponentText x
    have hhead : ∀ d ∈ [c], d.isDigit = true := by simpa using head
    have hend : ∀ d, ('e' :: sign :: ds).head? = some d → d.isDigit = false := fun d hd => by
      obtain rfl : 'e' = d := Option.some.inj hd
      rfl
    rw [htext] at hexp ⊢
    by_cases hnil : fraction = []
    · have hspan := spanDigits_append hhead hend
      rw [List.singleton_append] at hspan
      subst hnil
      simp [Numeral.size?, hspan, hexp, numberOf]
    · have hpoint : ∀ d, ('.' :: (fraction ++ 'e' :: sign :: ds)).head? = some d →
          d.isDigit = false := fun d hd => by
        obtain rfl : '.' = d := Option.some.inj hd
        rfl
      have hspan := spanDigits_append hhead hpoint
      rw [List.singleton_append] at hspan
      simp [Numeral.size?, hnil, hspan, spanDigits_append digits hend, hexp, numberOf]

/-- With its sign, a numeral in writing is read as a float. -/
theorem Written.float? (h : Written text n p) (negative : Bool) :
    float? (String.ofList ((if negative then ['-'] else []) ++ text)) =
      some (if negative then -scientific n p else scientific n p) := by
  have hgraphic : ∀ c ∈ (if negative then ['-'] else []) ++ text, Graphic c := by
    refine List.forall_mem_append.2 ⟨?_, fun c hc => ?_⟩
    · cases negative with
      | false => exact List.forall_mem_nil _
      | true => exact List.forall_mem_singleton.2 ⟨by decide, by decide, by decide⟩
    · obtain hnumber | rfl | rfl | rfl := h.chars c hc
      · exact graphic_of_inNumber hnumber
      · exact ⟨by decide, by decide, by decide⟩
      · exact ⟨by decide, by decide, by decide⟩
      · exact ⟨by decide, by decide, by decide⟩
  have hprepare : prepare ((if negative then ['-'] else []) ++ text) = some (negative, text) := by
    rw [prepare_of_graphic hgraphic]
    cases negative with
    | true => rfl
    | false =>
      obtain ⟨c, rest, rfl, hc⟩ := h.exists_cons
      refine congrArg some (splitSign_eq_self fun d hd => ?_)
      obtain rfl : c = d := Option.some.inj hd
      exact Lexer.inNumber_eq_true_iff.2 (.inl hc)
  refine float?_eq_size? hprepare (fun c hc hn => ?_) h.size?
  obtain hnumber | rfl | rfl | rfl := h.chars c hc
  · rw [toLower_of_inNumber hnumber] at hn
    exact absurd (hn ▸ hnumber) (by decide)
  · exact absurd hn (by decide)
  · exact absurd hn (by decide)
  · exact absurd hn (by decide)

end

end Numeral

namespace Shortest

open Numeral (Written numberOf scientific)

/-! ## The layout -/

/-- Without the zeros at its end a numeral is shorter and stands for the same number. -/
theorem exists_dropTrailingZeros (ds : List Char) :
    ∃ z, ds = dropTrailingZeros ds ++ List.replicate z '0' := by
  refine ⟨(ds.reverse.takeWhile (· == '0')).length, ?_⟩
  have hzeros : ds.reverse.takeWhile (· == '0') =
      List.replicate (ds.reverse.takeWhile (· == '0')).length '0' :=
    List.eq_replicate_of_mem fun c hc => by simpa using List.mem_takeWhile_imp hc
  rw [dropTrailingZeros, ← List.reverse_replicate, ← hzeros, ← List.reverse_append,
    List.takeWhile_append_dropWhile, List.reverse_reverse]

section

variable {c : Char} {rest : List Char}

/-- Below one, but not far below: zeros behind the point, and then the digits. -/
theorem exists_written_below (hds : ∀ d ∈ c :: rest, d.isDigit = true) {point : Int}
    (hneg : point ≤ 0) : ∃ n p,
      Written ("0." ++ String.ofList (List.replicate (-point).toNat '0' ++ c :: rest)).toList n p ∧
        (n : ℚ) * 10 ^ p = numberOf (c :: rest) * 10 ^ (point - (c :: rest).length) := by
  have hzeros := Numeral.isDigit_of_mem_replicate (n := (-point).toNat)
  have htext : ("0." ++ String.ofList (List.replicate (-point).toNat '0' ++ c :: rest)).toList =
      ['0'] ++ '.' :: (List.replicate (-point).toNat '0' ++ c :: rest) := by simp
  rw [htext]
  refine ⟨_, _, .point ⟨by simp, .inl rfl⟩ (by simp)
    (List.forall_mem_append.2 ⟨hzeros, hds⟩), ?_⟩
  rw [List.singleton_append, Numeral.numberOf_zero_cons, Numeral.numberOf_append hzeros hds,
    Numeral.numberOf_replicate, zero_mul, zero_add]
  congr 2
  rw [List.length_append, List.length_replicate]
  omega

/-- A whole number: all digits stand before the point, and zeros behind them. -/
theorem exists_written_whole (hds : ∀ d ∈ c :: rest, d.isDigit = true) (hc : c ≠ '0') (z : Nat) :
    ∃ n p,
      Written (String.ofList (c :: rest ++ List.replicate z '0') ++ "." ++ "0").toList n p ∧
        (n : ℚ) * 10 ^ p = numberOf (c :: rest) * 10 ^ z := by
  have hzeros := Numeral.isDigit_of_mem_replicate (n := z)
  have hwhole : ∀ d ∈ c :: rest ++ List.replicate z '0', d.isDigit = true :=
    List.forall_mem_append.2 ⟨hds, hzeros⟩
  have hzero : ∀ d ∈ ['0'], d.isDigit = true := by simp
  have htext : (String.ofList (c :: rest ++ List.replicate z '0') ++ "." ++ "0").toList =
      (c :: rest ++ List.replicate z '0') ++ '.' :: ['0'] := by simp
  have hlast : numberOf ['0'] = 0 := rfl
  refine ⟨_, _, htext ▸ Written.point ⟨hwhole, .inr ⟨c, _, rfl, hc⟩⟩ (by simp) hzero, ?_⟩
  rw [Numeral.numberOf_append hwhole hzero, Numeral.numberOf_append hds hzeros,
    Numeral.numberOf_replicate, hlast, List.length_replicate, List.length_singleton, Nat.cast_one,
    zpow_neg_one]
  push_cast
  ring

/-- The point stands between two digits. -/
theorem exists_written_between (hds : ∀ d ∈ c :: rest, d.isDigit = true) (hc : c ≠ '0') {k : Nat}
    (hdrop : (c :: rest).drop (k + 1) ≠ []) : ∃ n p,
      Written (String.ofList ((c :: rest).take (k + 1)) ++ "." ++
        String.ofList ((c :: rest).drop (k + 1))).toList n p ∧
        (n : ℚ) * 10 ^ p =
          numberOf (c :: rest) * 10 ^ (((k + 1 : Nat) : Int) - (c :: rest).length) := by
  have hlen : k + 1 < (c :: rest).length := by simpa using hdrop
  have htext : (String.ofList ((c :: rest).take (k + 1)) ++ "." ++
      String.ofList ((c :: rest).drop (k + 1))).toList =
        (c :: rest).take (k + 1) ++ '.' :: (c :: rest).drop (k + 1) := by simp
  rw [htext]
  refine ⟨_, _, .point ⟨fun d hd => hds d (List.mem_of_mem_take hd), .inr ⟨c, _, rfl, hc⟩⟩
    hdrop fun d hd => hds d (List.mem_of_mem_drop hd), ?_⟩
  rw [List.take_append_drop, List.length_drop]
  congr 2
  omega

/-- One digit stands before the point, and an exponent behind the others. -/
theorem exists_written_exponent (hds : ∀ d ∈ c :: rest, d.isDigit = true) (hc : c ≠ '0')
    (point : Int) : ∃ n p,
      Written (String.ofList ((c :: rest).take 1) ++ (if ((c :: rest).drop 1).isEmpty then ""
        else "." ++ String.ofList ((c :: rest).drop 1)) ++ exponentText (point - 1)).toList n p ∧
        (n : ℚ) * 10 ^ p = numberOf (c :: rest) * 10 ^ (point - (c :: rest).length) := by
  have htext : (String.ofList ((c :: rest).take 1) ++ (if ((c :: rest).drop 1).isEmpty then ""
      else "." ++ String.ofList ((c :: rest).drop 1)) ++ exponentText (point - 1)).toList =
      c :: ((if rest.isEmpty then [] else '.' :: rest) ++ (exponentText (point - 1)).toList) := by
    cases rest <;> simp
  obtain ⟨hhead, hrest⟩ := List.forall_mem_cons.1 hds
  rw [htext]
  refine ⟨_, _, .exponent hhead hc hrest (point - 1), ?_⟩
  congr 2
  rw [List.length_cons]
  push_cast
  ring

end

/-- **The layout of digits is a numeral for what they stand for behind the point.** -/
theorem exists_written_layout {ds : List Char} (hds : ∀ c ∈ ds, c.isDigit = true)
    (hhead : ∃ c rest, ds = c :: rest ∧ c ≠ '0') (point : Int) :
    ∃ n p, Written (layout ds point).toList n p ∧
      (n : ℚ) * 10 ^ p = numberOf ds * 10 ^ (point - ds.length) := by
  obtain ⟨c, rest, rfl, hc⟩ := hhead
  rw [layout]
  by_cases hrange : (-4 < point && point ≤ 16) = true
  · rw [if_pos hrange]
    by_cases hneg : point ≤ 0
    · rw [if_pos hneg]
      exact exists_written_below hds hneg
    · obtain ⟨k, rfl⟩ : ∃ k : Nat, point = (k + 1 : Nat) := ⟨(point - 1).toNat, by omega⟩
      rw [if_neg hneg, Int.toNat_natCast]
      by_cases hlen : (c :: rest).length ≤ k + 1
      · obtain ⟨z, hz⟩ : ∃ z, k + 1 = (c :: rest).length + z := Nat.exists_eq_add_of_le hlen
        have hpad : k + 1 - (c :: rest).length = z := by omega
        have hexp : ((k + 1 : Nat) : Int) - (c :: rest).length = z := by omega
        simp only [List.take_of_length_le hlen, List.drop_of_length_le hlen, hpad]
        rw [hexp, zpow_natCast]
        exact exists_written_whole hds hc z
      · have htake : ((c :: rest).take (k + 1)).length = k + 1 :=
          List.length_take_of_le (Nat.le_of_not_le hlen)
        have hdrop : (c :: rest).drop (k + 1) ≠ [] := fun hnil =>
          hlen (List.drop_eq_nil_iff.1 hnil)
        have hfraction : ¬ ((c :: rest).drop (k + 1)).isEmpty = true := fun hempty =>
          hdrop (List.isEmpty_iff.1 hempty)
        simp only [htake, Nat.sub_self, List.replicate_zero, List.append_nil, if_neg hfraction]
        exact exists_written_between hds hc hdrop
  · rw [if_neg hrange]
    exact exists_written_exponent hds hc point

/-- **What is written for a finite float other than zero rounds to it.** -/
theorem exists_written_sizeText {m : Nat} {e : Int} (hm : 0 < m) (hheld : Binary64.Held m e)
    (hmin : -1074 ≤ e) : ∃ n p, Written (sizeText m e).toList n p ∧
      Binary64.RoundsTo (n * 10 ^ p) m e := by
  obtain ⟨hpos, hround⟩ := digits_spec hm hheld hmin
  obtain ⟨z, hz⟩ := exists_dropTrailingZeros (natDigits (digits m e).1)
  obtain ⟨ds, hds⟩ : ∃ ds, ds = dropTrailingZeros (natDigits (digits m e).1) := ⟨_, rfl⟩
  have hall := Numeral.isDigit_of_mem_natDigits (n := (digits m e).1)
  rw [← hds] at hz
  have hdigits : ∀ c ∈ ds, c.isDigit = true := fun c hc =>
    hall c (hz ▸ List.mem_append_left _ hc)
  have hhead : ∃ c rest, ds = c :: rest ∧ c ≠ '0' := by
    obtain ⟨c, rest, hnat, hc⟩ := Numeral.exists_natDigits hpos
    rw [hnat] at hz
    cases ds with
    | nil =>
      have hmem : c ∈ List.replicate z '0' := by
        rw [← List.nil_append (List.replicate z '0'), ← hz]
        exact List.mem_cons_self ..
      exact absurd (List.eq_of_mem_replicate hmem) hc
    | cons d ds => exact ⟨d, ds, rfl, (List.cons.inj hz).1 ▸ hc⟩
  obtain ⟨n, p, hwritten, hvalue⟩ :=
    exists_written_layout hdigits hhead ((digits m e).2 + (natDigits (digits m e).1).length)
  have hsame : (n : ℚ) * 10 ^ p = (digits m e).1 * 10 ^ (digits m e).2 := by
    have hnumber := Numeral.numberOf_natDigits (digits m e).1
    rw [hz, Numeral.numberOf_append hdigits Numeral.isDigit_of_mem_replicate,
      Numeral.numberOf_replicate, List.length_replicate, add_zero] at hnumber
    have hexp : (digits m e).2 + ((ds ++ List.replicate z '0').length : Nat) - ds.length =
        z + (digits m e).2 := by
      rw [List.length_append, List.length_replicate]
      omega
    rw [hvalue, hz, hexp, zpow_add₀ (by norm_num), zpow_natCast, ← mul_assoc, ← hnumber]
    push_cast
    rfl
  have htext : sizeText m e =
      layout ds ((digits m e).2 + (natDigits (digits m e).1).length) := by
    rw [hds, sizeText, if_neg (by simpa using hm.ne')]
  rw [htext]
  exact ⟨n, p, hwritten, hsame ▸ hround⟩

/-! ## Floats -/

/-- **What is written for a finite float is a numeral with its sign, and the float is its
value.** -/
theorem exists_written {x : Float} (hx : x.isFinite = true) :
    ∃ (negative : Bool) (text : List Char) (n : Nat) (p : Int), Written text n p ∧
      (∀ specials, textWith specials x =
        String.ofList ((if negative then ['-'] else []) ++ text)) ∧
      (if negative then -scientific n p else scientific n p) = x := by
  obtain ⟨s, hu⟩ | ⟨s, m, e, hm, hu⟩ := Binary64.exists_of_isFinite hx
  · have hone : ∀ c ∈ ['0'], c.isDigit = true := List.forall_mem_singleton.2 rfl
    have hzero : Written "0.0".toList 0 (-1) :=
      Written.point ⟨hone, .inl rfl⟩ (List.cons_ne_nil _ _) hone
    refine ⟨s == .negative, _, 0, -1, hzero, fun specials => ?_, Binary64.eq_of_unpack ?_⟩
    · cases s <;> simp [textWith, Binary64.parts?, hu, sizeText]
    · rw [hu]
      cases s <;> rfl
  · have hheld := Binary64.held_unpack hu
    have hmin := Binary64.le_exponent_unpack hu
    obtain ⟨n, p, hwritten, hround⟩ := exists_written_sizeText hm hheld hmin
    have hn : 0 < n := by
      refine Nat.pos_of_ne_zero fun hzero => ?_
      have hpos := hround.pos hm
      rw [hzero, Nat.cast_zero, zero_mul] at hpos
      exact lt_irrefl _ hpos
    cases s with
    | positive =>
      refine ⟨false, _, n, p, hwritten, fun specials => ?_,
        Numeral.scientific_of_roundsTo hu hn hround⟩
      simp [textWith, Binary64.parts?, hu]
    | negative =>
      -- the size is a float of its own
      obtain ⟨y, hy⟩ : ∃ y : Float, y.toModel = Float.Model.pack (.finite .positive m e hm) :=
        ⟨.ofModel _, rfl⟩
      have hsize : y.toModel.unpack = .finite .positive m e hm := by
        rw [hy]
        exact hheld.unpack_pack hmin .positive hm
      refine ⟨true, _, n, p, hwritten, fun specials => ?_, Binary64.eq_of_unpack ?_⟩
      · simp [textWith, Binary64.parts?, hu]
      · show (Float.Model.pack (scientific n p).toModel.unpack.neg).unpack = _
        rw [Numeral.scientific_of_roundsTo hsize hn hround, hsize, hu]
        exact hheld.unpack_pack hmin .negative hm

/-- What is not finite has a word of its own. -/
theorem textWith_of_not_isFinite {x : Float} (hx : x.isFinite = false) :
    (x = 0.0 / 0.0 ∧ ∀ specials, textWith specials x = specials.nan) ∨
    (x = 1.0 / 0.0 ∧ ∀ specials, textWith specials x = specials.infinity) ∨
    (x = -(1.0 / 0.0) ∧ ∀ specials, textWith specials x = "-" ++ specials.infinity) := by
  replace hx : x.toModel.unpack.isFinite = false := hx
  cases hu : x.toModel.unpack with
  | notANumber =>
    refine .inl ⟨Binary64.eq_of_unpack (hu.trans rfl), fun specials => ?_⟩
    have hnan : x.isNaN = true := congrArg _ hu
    simp only [textWith, Binary64.parts?, hu, if_pos hnan]
  | infinity s =>
    have hnan : ¬ x.isNaN = true := Bool.eq_false_iff.1 (congrArg _ hu)
    cases s with
    | positive =>
      refine .inr (.inl ⟨Binary64.eq_of_unpack (hu.trans rfl), fun specials => ?_⟩)
      have hneg : ¬ x < 0 := by
        rw [Binary64.lt_iff, hu]
        decide
      simp only [textWith, Binary64.parts?, hu, if_neg hnan, if_neg hneg]
    | negative =>
      refine .inr (.inr ⟨Binary64.eq_of_unpack (hu.trans rfl), fun specials => ?_⟩)
      have hneg : x < 0 := by
        rw [Binary64.lt_iff, hu]
        decide
      simp only [textWith, Binary64.parts?, hu, if_neg hnan, if_pos hneg]
  | zero s => rw [hu] at hx; cases hx
  | finite s m e hm => rw [hu] at hx; cases hx

/-- **The text of a float is read as the float**, also if it is not finite. -/
theorem float?_text (x : Float) : Numeral.float? (text x) = some x := by
  cases hx : x.isFinite with
  | true =>
    obtain ⟨negative, body, n, p, hwritten, htext, hvalue⟩ := exists_written hx
    rw [text, htext, hwritten.float?, hvalue]
  | false =>
    obtain ⟨rfl, h⟩ | ⟨rfl, h⟩ | ⟨rfl, h⟩ := textWith_of_not_isFinite hx
    · rw [text, h]
      rfl
    · rw [text, h]
      rfl
    · rw [text, h]
      rfl

end Shortest
end SpaceCurve
