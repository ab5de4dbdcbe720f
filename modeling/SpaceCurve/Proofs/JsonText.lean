import SpaceCurve.Json.Reader
import SpaceCurve.Json.Writer
import SpaceCurve.Proofs.Records
import SpaceCurve.Proofs.ShortestText

/-!
# JSON text that reads back

What is written for a value is read as the value.

## What is here

* `Plain n v` — JSON can say the value with at most `n` lists and records inside one another: it has
  no tuples, no name stands twice in a record, and its integers are not too long.
* `Scans` — a text begins with some tokens, whatever fuel there is.  Strings (`scans_quote`),
  integers (`scans_int`) and floats (`scans_number`) are one token each.
* `Reads` — the machine gets from one state to another by a text.
* `readWithin_render` — **the text of a plain value is read as the value**, on one line or with an
  indent.
-/

set_option autoImplicit false

namespace SpaceCurve
namespace Json

/-- A value that JSON can say with at most so many lists and records inside one another. -/
inductive Plain : Nat → Value → Prop
  | null {n : Nat} : Plain n .null
  | bool {n : Nat} (b : Bool) : Plain n (.bool b)
  | int {n : Nat} {i : Int} (short : i.natAbs < 10 ^ Numeral.maxIntegerDigits) : Plain n (.int i)
  | real {n : Nat} (x : Float) : Plain n (.real x)
  | text {n : Nat} (s : String) : Plain n (.text s)
  | list {n : Nat} {items : List Value} (items_plain : ∀ v ∈ items, Plain n v) :
      Plain (n + 1) (.list items)
  | record {n : Nat} {fields : Fields} (distinct : fields.Distinct)
      (fields_plain : ∀ f ∈ fields, Plain n f.2) : Plain (n + 1) (.record fields)

theorem Plain.mono {n m : Nat} {v : Value} (h : Plain n v) (hle : n ≤ m) : Plain m v := by
  induction h generalizing m with
  | null => exact .null
  | bool b => exact .bool b
  | int short => exact .int short
  | real x => exact .real x
  | text s => exact .text s
  | list _ ih =>
    obtain ⟨k, rfl⟩ : ∃ k, m = k + 1 := ⟨m - 1, by omega⟩
    exact .list fun v hv => ih v hv (by omega)
  | record distinct _ ih =>
    obtain ⟨k, rfl⟩ : ∃ k, m = k + 1 := ⟨m - 1, by omega⟩
    exact .record distinct fun f hf => ih f hf (by omega)

theorem Plain.of_mem_fields {n : Nat} {fields : Fields} (h : Plain n (.record fields)) :
    ∀ f ∈ fields, Plain n f.2 := by
  cases h with
  | record _ fields_plain => exact fun f hf => (fields_plain f hf).mono (Nat.le_succ _)

/-! ## Tokens -/

/-- The text begins with the tokens, and the rest follows. -/
def Scans (text : List Char) (ts : List Token) (rest : List Char) : Prop :=
  ∀ fuel, text.length < fuel → ∃ fuel', rest.length < fuel' ∧
    tokensFrom fuel text = ts ++ tokensFrom fuel' rest

theorem Scans.refl (text : List Char) : Scans text [] text := fun fuel h => ⟨fuel, h, rfl⟩

theorem Scans.trans {a b c : List Char} {ts us : List Token} (h : Scans a ts b)
    (h' : Scans b us c) : Scans a (ts ++ us) c := by
  intro fuel hfuel
  obtain ⟨fuel', hfuel', hts⟩ := h fuel hfuel
  obtain ⟨fuel'', hfuel'', hus⟩ := h' fuel' hfuel'
  exact ⟨fuel'', hfuel'', by rw [hts, hus, List.append_assoc]⟩

theorem Scans.tokens_eq {text : List Char} {ts : List Token} (h : Scans text ts []) :
    tokens text = ts := by
  obtain ⟨fuel, -, hts⟩ := h (text.length + 1) (Nat.lt_succ_self _)
  have hnil : tokensFrom fuel [] = [] := by cases fuel <;> rfl
  rw [tokens, hts, hnil, List.append_nil]

/-- White space in front makes no difference. -/
theorem Scans.of_space {spaces text rest : List Char} {ts : List Token}
    (hspaces : ∀ c ∈ spaces, isSpace c = true) (h : Scans text ts rest) :
    Scans (spaces ++ text) ts rest := by
  intro fuel hfuel
  rw [List.length_append] at hfuel
  obtain ⟨fuel', hfuel', hts⟩ := h fuel (by omega)
  refine ⟨fuel', hfuel', Eq.trans ?_ hts⟩
  cases fuel with
  | zero => rfl
  | succ fuel => rw [tokensFrom, tokensFrom, List.dropWhile_append_of_pos hspaces]

theorem scans_token {c : Char} {cs rest : List Char} {t : Token} (hspace : isSpace c = false)
    (htoken : token? (c :: cs) = some (t, rest)) (hlength : rest.length ≤ cs.length) :
    Scans (c :: cs) [t] rest := by
  intro fuel hfuel
  obtain ⟨fuel, rfl⟩ : ∃ k, fuel = k + 1 := ⟨fuel - 1, by omega⟩
  rw [List.length_cons] at hfuel
  refine ⟨fuel, by omega, ?_⟩
  rw [tokensFrom, List.dropWhile_cons_of_neg (by rw [hspace]; exact Bool.false_ne_true)]
  simp only [htoken, List.singleton_append]

theorem scans_comma (rest : List Char) : Scans (',' :: rest) [.comma] rest :=
  scans_token rfl rfl le_rfl

theorem scans_colon (rest : List Char) : Scans (':' :: rest) [.colon] rest :=
  scans_token rfl rfl le_rfl

theorem scans_openList (rest : List Char) : Scans ('[' :: rest) [.openList] rest :=
  scans_token rfl rfl le_rfl

theorem scans_closeList (rest : List Char) : Scans (']' :: rest) [.closeList] rest :=
  scans_token rfl rfl le_rfl

theorem scans_openRecord (rest : List Char) : Scans ('\x7b' :: rest) [.openRecord] rest :=
  scans_token rfl rfl le_rfl

theorem scans_closeRecord (rest : List Char) : Scans ('\x7d' :: rest) [.closeRecord] rest :=
  scans_token rfl rfl le_rfl

/-! ## Strings -/

theorem hexDigit?_digitChar {d : Nat} (h : d < 16) : hexDigit? (Nat.digitChar d) = some d := by
  interval_cases d <;> rfl

/-- Four hexadecimal digits are read as the number. -/
theorem hexUnit?_hex {u : Nat} (h : u < 0x10000) (rest : List Char) :
    hexUnit? (Text.hex 4 u ++ rest) = some (u, rest) := by
  have hdigit : ∀ k, hexDigit? (Nat.digitChar (k % 16)) = some (k % 16) := fun k =>
    hexDigit?_digitChar (Nat.mod_lt k (by decide))
  have hhex : Text.hex 4 u = [Nat.digitChar (u / 4096 % 16), Nat.digitChar (u / 256 % 16),
      Nat.digitChar (u / 16 % 16), Nat.digitChar (u / 1 % 16)] := rfl
  have hsum : 16 * (16 * (16 * (16 * 0 + u / 4096 % 16) + u / 256 % 16) + u / 16 % 16) +
      u / 1 % 16 = u := by omega
  rw [hhex]
  simp only [hexUnit?, List.cons_append, List.nil_append, List.foldlM_cons, List.foldlM_nil, hdigit,
    Option.map_some, Option.bind_eq_bind, Option.bind_some, hsum]
  rfl

/-- **The units of a character are read as the character.** -/
theorem unicodeEscape?_units (c : Char) : ∃ tail,
    ((units c).flatMap fun u => '\\' :: 'u' :: Text.hex 4 u) = '\\' :: 'u' :: tail ∧
      ∀ rest, unicodeEscape? (tail ++ rest) = some (c, rest) := by
  have hvalid : c.toNat < 0xd800 ∨ 0xdfff < c.toNat ∧ c.toNat < 0x110000 := c.valid
  rw [units]
  by_cases hsmall : c.toNat < 0x10000
  · rw [if_pos hsmall]
    refine ⟨Text.hex 4 c.toNat, by simp, fun rest => ?_⟩
    have hhigh : ¬ (0xd800 ≤ c.toNat ∧ c.toNat ≤ 0xdbff) := by omega
    have hunit : ofUnit c.toNat = c := by
      rw [ofUnit, if_neg (by simp; omega), Char.ofNat_toNat]
    simp [unicodeEscape?, hexUnit?_hex hsmall, hhigh, hunit]
  · rw [if_neg hsmall]
    obtain ⟨rest₀, hrest₀⟩ : ∃ r, r = c.toNat - 0x10000 := ⟨_, rfl⟩
    simp only [← hrest₀]
    refine ⟨Text.hex 4 (0xd800 + rest₀ / 0x400) ++
      '\\' :: 'u' :: Text.hex 4 (0xdc00 + rest₀ % 0x400), by simp, fun rest => ?_⟩
    have hback : 0x10000 + (0xd800 + rest₀ / 0x400 - 0xd800) * 0x400 +
        (0xdc00 + rest₀ % 0x400 - 0xdc00) = c.toNat := by omega
    have hhigh : 0xd800 ≤ 0xd800 + rest₀ / 0x400 ∧ 0xd800 + rest₀ / 0x400 ≤ 0xdbff := by omega
    have hlow : 0xdc00 ≤ 0xdc00 + rest₀ % 0x400 ∧ 0xdc00 + rest₀ % 0x400 ≤ 0xdfff := by omega
    rw [List.append_assoc, unicodeEscape?, hexUnit?_hex (by omega)]
    simp only [Option.bind_eq_bind, Option.bind_some, List.cons_append, hexUnit?_hex
      (show 0xdc00 + rest₀ % 0x400 < 0x10000 by omega), hback, Char.ofNat_toNat]
    simp [hhigh, hlow]

/-- A character inside a string stands for itself, or an escape stands for it. -/
theorem escape_cases (c : Char) :
    (escape c = [c] ∧ c ≠ Text.doubleQuote ∧ c ≠ '\\' ∧ 0x20 ≤ c.toNat) ∨
      ∃ tail, escape c = '\\' :: tail ∧ ∀ rest, escaped? (tail ++ rest) = some (c, rest) := by
  have hcode : ∀ n, c.toNat = n → c = Char.ofNat n := fun n hn => by rw [← hn, Char.ofNat_toNat]
  by_cases hsame : c = Text.doubleQuote ∨ c = '\\'
  · refine .inr ⟨[c], by rcases hsame with rfl | rfl <;> rfl, fun rest => ?_⟩
    rcases hsame with rfl | rfl <;> rfl
  by_cases hn : c = '\n'
  · exact .inr ⟨['n'], by rw [hn]; rfl, fun rest => by rw [hn]; rfl⟩
  by_cases hr : c = '\r'
  · exact .inr ⟨['r'], by rw [hr]; rfl, fun rest => by rw [hr]; rfl⟩
  by_cases ht : c = '\t'
  · exact .inr ⟨['t'], by rw [ht]; rfl, fun rest => by rw [ht]; rfl⟩
  by_cases hb : c.toNat = 0x08
  · exact .inr ⟨['b'], by rw [hcode _ hb]; rfl, fun rest => by rw [hcode _ hb]; rfl⟩
  by_cases hf : c.toNat = 0x0c
  · exact .inr ⟨['f'], by rw [hcode _ hf]; rfl, fun rest => by rw [hcode _ hf]; rfl⟩
  obtain ⟨hquote, hslash⟩ := not_or.1 hsame
  by_cases hplain : 0x20 ≤ c.toNat ∧ c.toNat < 0x7f
  · exact .inl ⟨by simp [escape, hquote, hslash, hn, hr, ht, hb, hf, hplain], hquote, hslash,
      hplain.1⟩
  · obtain ⟨tail, htail, hread⟩ := unicodeEscape?_units c
    exact .inr ⟨'u' :: tail, by
      rw [← htail]
      simp [escape, hquote, hslash, hn, hr, ht, hb, hf, hplain], hread⟩

/-- **What is between the quotes is read up to the closing quote.** -/
theorem stringBody?_escape (cs rest : List Char) {fuel : Nat}
    (hfuel : (cs.flatMap escape ++ Text.doubleQuote :: rest).length < fuel) :
    stringBody? fuel (cs.flatMap escape ++ Text.doubleQuote :: rest) = some (cs, rest) := by
  induction cs generalizing fuel with
  | nil =>
    obtain ⟨fuel, rfl⟩ : ∃ k, fuel = k + 1 := ⟨fuel - 1, by omega⟩
    rfl
  | cons c cs ih =>
    obtain ⟨fuel, rfl⟩ : ∃ k, fuel = k + 1 := ⟨fuel - 1, by omega⟩
    rw [List.flatMap_cons, List.append_assoc] at hfuel ⊢
    obtain ⟨hsame, hquote, hslash, hcode⟩ | ⟨tail, htail, hread⟩ := escape_cases c
    · rw [hsame, List.singleton_append] at hfuel ⊢
      rw [List.length_cons] at hfuel
      have hbody := ih (Nat.lt_of_succ_lt_succ hfuel)
      simp [stringBody?, hquote, hslash, hcode, hbody]
    · rw [htail, List.cons_append] at hfuel ⊢
      rw [List.length_cons, List.length_append] at hfuel
      have hstart : '\\' ≠ Text.doubleQuote := by decide
      have hbody := @ih fuel (by omega)
      simp [stringBody?, hstart, hread, hbody]

theorem scans_quote (s : String) (rest : List Char) :
    Scans ((quote s).toList ++ rest) [.text s] rest := by
  have htext : (quote s).toList ++ rest =
      Text.doubleQuote :: (s.toList.flatMap escape ++ Text.doubleQuote :: rest) := by
    simp [quote]
  rw [htext]
  refine scans_token rfl ?_ (by simp; omega)
  have hbody := stringBody?_escape s.toList rest (Nat.lt_succ_self _)
  show (stringBody? _ _).map _ = _
  rw [hbody]
  simp

/-! ## Numbers -/

/-- What may follow a value: nothing, white space, a comma or a closing bracket. -/
def Delimited (rest : List Char) : Prop :=
  ∀ c, rest.head? = some c → isSpace c = true ∨ c = ',' ∨ c = ']' ∨ c = '\x7d'

theorem Delimited.head {rest : List Char} (h : Delimited rest) {c : Char}
    (hc : rest.head? = some c) : c.isDigit = false ∧ c ≠ '.' ∧ c ≠ 'e' ∧ c ≠ 'E' := by
  have hcases := h c hc
  simp only [isSpace, Bool.or_eq_true, beq_iff_eq] at hcases
  rcases hcases with (((rfl | rfl) | rfl) | rfl) | rfl | rfl | rfl <;> decide

section

open Numeral (IsWhole Written numberOf scientific)

variable {rest : List Char}

theorem wholePart?_append {ds : List Char} (h : IsWhole ds)
    (hrest : ∀ c, rest.head? = some c → c.isDigit = false) :
    wholePart? (ds ++ rest) = some (ds, rest) := by
  obtain rfl | ⟨c, tail, rfl, hc⟩ := h.head
  · rfl
  · have hdigit := h.digits c (List.mem_cons_self ..)
    have hspan : (c :: tail ++ rest).span Char.isDigit = (c :: tail, rest) :=
      Numeral.spanDigits_append h.digits hrest
    rw [List.cons_append] at hspan ⊢
    rw [wholePart?.eq_def]
    split
    · next heq => exact absurd (List.cons.inj heq).1 hc
    · next heq =>
      cases heq
      rw [if_pos hdigit, hspan]
    · next heq => cases heq

theorem fractionPart_eq_nil (h : ∀ c, rest.head? = some c → c ≠ '.') :
    fractionPart rest = ([], rest) := by
  rw [fractionPart.eq_def]
  split
  · exact absurd rfl (h '.' rfl)
  · rfl

theorem fractionPart_append {ds : List Char} (hds : ∀ c ∈ ds, c.isDigit = true) (hne : ds ≠ [])
    (hrest : ∀ c, rest.head? = some c → c.isDigit = false) :
    fractionPart ('.' :: (ds ++ rest)) = (ds, rest) := by
  obtain ⟨htake, hdrop⟩ := Lexer.span_append hds hrest
  simp [fractionPart, htake, hdrop, hne]

theorem exponentPart_eq_none (h : ∀ c, rest.head? = some c → c ≠ 'e' ∧ c ≠ 'E') :
    exponentPart rest = (none, rest) := by
  cases rest with
  | nil => rfl
  | cons c rest => simp [exponentPart, h c rfl]

theorem exponentPart_exponentText (x : Int)
    (hrest : ∀ c, rest.head? = some c → c.isDigit = false) :
    exponentPart ((Shortest.exponentText x).toList ++ rest) = (some x, rest) := by
  obtain ⟨sign, ds, htext, hne, hds, ⟨rfl, hx⟩ | ⟨rfl, hx⟩⟩ := Numeral.exists_exponentText x
  all_goals
    obtain ⟨htake, hdrop⟩ := Lexer.span_append hds hrest
    rw [htext, hx]
    simp [exponentPart, Numeral.splitSign, htake, hdrop, hne, numberOf]

theorem isWhole_natDigits (n : Nat) : IsWhole (Shortest.natDigits n) := by
  refine ⟨Numeral.isDigit_of_mem_natDigits, ?_⟩
  rcases Nat.eq_zero_or_pos n with rfl | hn
  · exact .inl rfl
  · exact .inr (Numeral.exists_natDigits hn)

/-- **The digits of an integer are read as the integer**, unless there are too many. -/
theorem numberToken?_natDigits {n : Nat} (hn : n < 10 ^ Numeral.maxIntegerDigits)
    (hrest : Delimited rest) (negative : Bool) :
    numberToken? negative (Shortest.natDigits n ++ rest) =
      some (.literal (.int (if negative then -(n : Int) else n)), rest) := by
  have hlength : ¬ Numeral.maxIntegerDigits < (Shortest.natDigits n).length :=
    Nat.not_lt.2 ((Nat.length_toDigits_le_iff (by decide) (by decide)).2 hn)
  have hvalue := Numeral.numberOf_natDigits n
  rw [numberOf] at hvalue
  rw [numberToken?, wholePart?_append (isWhole_natDigits n) fun c hc => (hrest.head hc).1]
  simp only [Option.bind_eq_bind, Option.bind_some,
    fractionPart_eq_nil fun c hc => (hrest.head hc).2.1,
    exponentPart_eq_none fun c hc => (hrest.head hc).2.2, List.append_nil, hvalue,
    List.isEmpty_nil, Option.isNone_none, Bool.and_self, if_true, if_neg hlength]
  rfl

theorem isWhole_singleton {c : Char} (hc : c.isDigit = true) (hne : c ≠ '0') : IsWhole [c] :=
  ⟨List.forall_mem_singleton.2 hc, .inr ⟨c, [], rfl, hne⟩⟩

/-- **A numeral in writing is read as a float.** -/
theorem numberToken?_written {text : List Char} {n : Nat} {p : Int} (h : Written text n p)
    (hrest : Delimited rest) (negative : Bool) :
    numberToken? negative (text ++ rest) =
      some (.literal (.real (if negative then -scientific n p else scientific n p)), rest) := by
  have hdigit : ∀ c, rest.head? = some c → c.isDigit = false := fun c hc => (hrest.head hc).1
  cases h with
  | @point whole fraction whole_ok ne_nil digits =>
    rw [List.append_assoc, List.cons_append, numberToken?, wholePart?_append whole_ok fun c hc => by
      obtain rfl : '.' = c := Option.some.inj hc
      rfl]
    simp [fractionPart_append digits ne_nil hdigit, numberOf, ne_nil,
      exponentPart_eq_none fun c hc => (hrest.head hc).2.2]
  | @exponent c fraction head ne_zero digits x =>
    obtain ⟨sign, ds, htext, -⟩ := Numeral.exists_exponentText x
    have hexp := exponentPart_exponentText x hdigit
    have hwhole : ∀ (d : Char) (r : List Char), d.isDigit = false →
        wholePart? (c :: d :: r) = some ([c], d :: r) := fun d r hd =>
      wholePart?_append (isWhole_singleton head ne_zero) fun d' hd' => by
        obtain rfl : d = d' := Option.some.inj hd'
        exact hd
    rw [htext, List.cons_append, List.cons_append] at hexp
    rw [htext, List.cons_append, List.append_assoc, List.cons_append, List.cons_append]
    by_cases hnil : fraction = []
    · subst hnil
      rw [List.isEmpty_nil, if_pos rfl, List.nil_append, numberToken?, hwhole 'e' _ rfl]
      have hpoint : fractionPart ('e' :: sign :: (ds ++ rest)) =
          ([], 'e' :: sign :: (ds ++ rest)) := rfl
      simp [hpoint, hexp, numberOf]
    · rw [if_neg (by simpa using hnil), List.cons_append, numberToken?, hwhole '.' _ rfl]
      have hpoint : fractionPart ('.' :: (fraction ++ 'e' :: sign :: (ds ++ rest))) =
          (fraction, 'e' :: sign :: (ds ++ rest)) := fractionPart_append digits hnil fun d hd => by
        obtain rfl : 'e' = d := Option.some.inj hd
        rfl
      simp [hpoint, hexp, numberOf]

theorem token?_of_isDigit {c : Char} (h : c.isDigit = true) (cs : List Char) :
    token? (c :: cs) = (numberToken? false (c :: cs)).or (wordToken? (c :: cs)) := by
  have hne : ∀ d, d.isDigit = false → c ≠ d := by
    rintro d hd rfl
    exact absurd (h.symm.trans hd) (by decide)
  simp [token?, hne '[' rfl, hne ']' rfl, hne '\x7b' rfl, hne '\x7d' rfl, hne ',' rfl, hne ':' rfl,
    hne '-' rfl, hne Text.doubleQuote rfl]

theorem token?_minus (cs : List Char) :
    token? ('-' :: cs) = (numberToken? true cs).or (wordToken? ('-' :: cs)) := rfl

/-- A numeral with its sign is one token. -/
theorem scans_signed {body : List Char} {t : Token} (negative : Bool)
    (hbody : ∃ c tail, body = c :: tail ∧ c.isDigit = true)
    (h : numberToken? negative (body ++ rest) = some (t, rest)) :
    Scans ((if negative then ['-'] else []) ++ body ++ rest) [t] rest := by
  obtain ⟨c, tail, rfl, hc⟩ := hbody
  cases negative with
  | false =>
    have hspace : isSpace c = false := by
      rw [← Bool.not_eq_true]
      intro hspace
      simp only [isSpace, Bool.or_eq_true, beq_iff_eq] at hspace
      rcases hspace with ((rfl | rfl) | rfl) | rfl <;> exact absurd hc (by decide)
    refine scans_token hspace ?_ (by simp)
    rw [List.cons_append] at h
    rw [token?_of_isDigit hc, List.append_eq, h]
    rfl
  | true =>
    show Scans ('-' :: (c :: tail ++ rest)) [t] rest
    refine scans_token rfl ?_ (by simp; omega)
    rw [token?_minus, h]
    rfl

theorem scans_int {i : Int} (hi : i.natAbs < 10 ^ Numeral.maxIntegerDigits)
    (hrest : Delimited rest) : Scans ((toString i).toList ++ rest) [.literal (.int i)] rest := by
  have hbody : ∀ n, ∃ c tail, Shortest.natDigits n = c :: tail ∧ c.isDigit = true := fun n => by
    obtain ⟨c, tail, hds⟩ := List.exists_cons_of_ne_nil (Nat.toDigits_ne_nil (n := n) (b := 10))
    exact ⟨c, tail, hds, Numeral.isDigit_of_mem_natDigits c (hds ▸ List.mem_cons_self ..)⟩
  cases i with
  | ofNat n =>
    have htext : (toString (Int.ofNat n)).toList = [] ++ Shortest.natDigits n := Nat.toList_repr
    rw [htext]
    exact scans_signed false (hbody n) (numberToken?_natDigits hi hrest false)
  | negSucc n =>
    have htext : (toString (Int.negSucc n)).toList = ['-'] ++ Shortest.natDigits (n + 1) := by
      show ("-" ++ (n + 1).repr).toList = _
      rw [String.toList_append, Nat.toList_repr]
      rfl
    rw [htext]
    exact scans_signed true (hbody (n + 1)) (numberToken?_natDigits hi hrest true)

theorem scans_number (x : Float) (hrest : Delimited rest) :
    Scans ((number x).toList ++ rest) [.literal (.real x)] rest := by
  cases hx : x.isFinite with
  | true =>
    obtain ⟨negative, body, n, p, hwritten, htext, hvalue⟩ := Shortest.exists_written hx
    rw [number, htext, String.toList_ofList, ← hvalue]
    exact scans_signed negative hwritten.exists_cons (numberToken?_written hwritten hrest negative)
  | false =>
    obtain ⟨rfl, h⟩ | ⟨rfl, h⟩ | ⟨rfl, h⟩ := Shortest.textWith_of_not_isFinite hx
    · rw [number, h]
      exact scans_token rfl rfl (by simp; omega)
    · rw [number, h]
      exact scans_token rfl rfl (by simp; omega)
    · have hword : -(1.0 / 0.0 : Float) = -1.0 / 0.0 := Binary64.eq_of_unpack rfl
      rw [number, h, hword]
      exact scans_token rfl rfl (by simp; omega)

end

/-! ## Values -/

/-- The machine gets from one state to another by a text, and the rest follows. -/
def Reads (limit : Nat) (text : List Char) (s : State) (rest : List Char) (s' : State) : Prop :=
  ∃ ts, Scans text ts rest ∧ ts.foldlM (State.step limit) s = .ok s'

section

variable {limit : Nat} {a b c : List Char} {s s' s'' : State}

theorem Reads.refl (text : List Char) (s : State) : Reads limit text s text s :=
  ⟨[], Scans.refl text, rfl⟩

theorem Reads.trans (h : Reads limit a s b s') (h' : Reads limit b s' c s'') :
    Reads limit a s c s'' := by
  obtain ⟨ts, hts, hsteps⟩ := h
  obtain ⟨us, hus, hsteps'⟩ := h'
  refine ⟨ts ++ us, hts.trans hus, ?_⟩
  rw [List.foldlM_append, hsteps]
  exact hsteps'

theorem reads_token {t : Token} (h : Scans a [t] b) (hstep : State.step limit s t = .ok s') :
    Reads limit a s b s' := by
  refine ⟨[t], h, ?_⟩
  rw [List.foldlM_cons, hstep]
  rfl

theorem Reads.of_space {spaces : List Char} (hspaces : ∀ c ∈ spaces, isSpace c = true)
    (h : Reads limit a s b s') : Reads limit (spaces ++ a) s b s' := by
  obtain ⟨ts, hts, hsteps⟩ := h
  exact ⟨ts, hts.of_space hspaces, hsteps⟩

end

/-! ## The layout -/

/-- An indent of white space, or none. -/
def Blank (indent : Option String) : Prop :=
  ∀ unit, indent = some unit → ∀ c ∈ unit.toList, isSpace c = true

theorem isSpace_of_mem_newline {indent : Option String} (h : Blank indent) (depth : Nat) :
    ∀ c ∈ (newline indent depth).toList, isSpace c = true := by
  cases indent with
  | none => exact List.forall_mem_nil _
  | some unit =>
    intro c hc
    rw [newline, String.toList_append, String.toList_join] at hc
    rcases List.mem_append.1 hc with hbreak | hunits
    · obtain rfl : c = '\n' := by simpa using hbreak
      rfl
    · obtain ⟨u, hu, hcu⟩ := List.mem_flatMap.1 hunits
      exact h unit rfl c (List.eq_of_mem_replicate hu ▸ hcu)

theorem intercalate_cons (separator item : List Char) (items : List (List Char)) :
    List.intercalate separator (item :: items) = item ++ items.flatMap (separator ++ ·) := by
  induction items generalizing item with
  | nil => simp
  | cons next rest ih =>
    rw [List.intercalate_cons_cons, ih, List.flatMap_cons, List.append_assoc, List.append_assoc]

/-- Items stand between brackets, with white space around them and a comma between two. -/
theorem exists_enclose {indent : Option String} (h : Blank indent) (depth : Nat)
    (opening closing item : String) (items : List String) : ∃ before separator after : List Char,
      ((∀ c ∈ before, isSpace c = true) ∧ (∀ c ∈ separator, isSpace c = true) ∧
        ∀ c ∈ after, isSpace c = true) ∧
      (enclose indent depth opening closing (item :: items)).toList =
        opening.toList ++ (before ++ (item.toList ++
          ((items.flatMap fun i => ',' :: (separator ++ i.toList)) ++
            (after ++ closing.toList)))) := by
  have hnewline := isSpace_of_mem_newline h
  cases indent with
  | none =>
    refine ⟨[], [' '], [], ⟨List.forall_mem_nil _, by simp [isSpace], List.forall_mem_nil _⟩, ?_⟩
    simp [enclose, newline, intercalate_cons, List.flatMap_map]
  | some unit =>
    refine ⟨_, _, _, ⟨hnewline (depth + 1), hnewline (depth + 1), hnewline depth⟩, ?_⟩
    simp [enclose, intercalate_cons, List.flatMap_map]

theorem renderItems_eq (indent : Option String) (depth : Nat) (items : List Value) :
    renderItems indent depth items = items.map (renderAt indent depth) := by
  induction items with
  | nil => rw [renderItems, List.map_nil]
  | cons v rest ih => rw [renderItems, ih, List.map_cons]

theorem renderFields_eq (indent : Option String) (depth : Nat) (fields : Fields) :
    renderFields indent depth fields =
      fields.map fun f => quote f.1 ++ ": " ++ renderAt indent depth f.2 := by
  induction fields with
  | nil => rw [renderFields, List.map_nil]
  | cons f rest ih => rw [renderFields, ih, List.map_cons]

/-! ## Values -/

section

variable {limit : Nat} {stack : List Frame} {rest : List Char}

/-- Where a value may begin, it does, unless a list is closed. -/
theorem step_begin {expect : Expect} (h : expect = .value ∨ expect = .valueOrClose) {t : Token}
    (ht : t ≠ .closeList) : State.step limit ⟨stack, expect⟩ t = State.begin limit stack t := by
  rcases h with rfl | rfl
  · rfl
  · cases t <;> first
      | rfl
      | exact absurd rfl ht

theorem step_openList {expect : Expect} (h : expect = .value ∨ expect = .valueOrClose)
    (hopen : stack.length < limit) :
    State.step limit ⟨stack, expect⟩ .openList = .ok ⟨.list [] :: stack, .valueOrClose⟩ := by
  refine (step_begin h ?_).trans (if_neg (Nat.not_le.2 hopen))
  nofun

theorem step_openRecord {expect : Expect} (h : expect = .value ∨ expect = .valueOrClose)
    (hopen : stack.length < limit) :
    State.step limit ⟨stack, expect⟩ .openRecord = .ok ⟨stack, .nameOrClose⟩ := by
  refine (step_begin h ?_).trans (if_neg (Nat.not_le.2 hopen))
  nofun

theorem delimited_cons {c : Char} (h : isSpace c = true ∨ c = ',' ∨ c = ']' ∨ c = '\x7d')
    (cs : List Char) : Delimited (c :: cs) := fun d hd => by
  obtain rfl : c = d := Option.some.inj hd
  exact h

theorem delimited_append {spaces : List Char} (hspaces : ∀ c ∈ spaces, isSpace c = true)
    (h : Delimited rest) : Delimited (spaces ++ rest) := by
  cases spaces with
  | nil => exact h
  | cons c spaces => exact delimited_cons (.inl (hspaces c (List.mem_cons_self ..))) _

/-- What follows the items is a comma or the rest. -/
theorem delimited_flatMap {α : Type} (item : α → List Char) (items : List α)
    (hrest : Delimited rest) : Delimited ((items.flatMap fun v => ',' :: item v) ++ rest) := by
  cases items with
  | nil => exact hrest
  | cons v items => exact delimited_cons (.inr (.inl rfl)) _

/-- What is written for a value is read, wherever a value may begin. -/
def ReadsBack (limit : Nat) (text : List Char) (stack : List Frame) (v : Value) : Prop :=
  ∀ (expect : Expect) (rest : List Char), expect = .value ∨ expect = .valueOrClose →
    Delimited rest → Reads limit (text ++ rest) ⟨stack, expect⟩ rest (State.accept v stack)

section

variable {indent : Option String} {depth : Nat} {separator : List Char}

/-- Items that follow others, each behind a comma, join them. -/
theorem reads_items (hseparator : ∀ c ∈ separator, isSpace c = true) {items : List Value}
    (hitems : ∀ v ∈ items, ∀ before,
      ReadsBack limit (renderAt indent depth v).toList (.list before :: stack) v)
    (hrest : Delimited rest) (before : List Value) :
    Reads limit ((items.flatMap fun v => ',' :: (separator ++ (renderAt indent depth v).toList)) ++
        rest) ⟨.list before :: stack, .commaOrClose⟩ rest
      ⟨.list (before ++ items) :: stack, .commaOrClose⟩ := by
  induction items generalizing before with
  | nil =>
    rw [List.append_nil]
    exact Reads.refl _ _
  | cons v items ih =>
    obtain ⟨hv, htail⟩ := List.forall_mem_cons.1 hitems
    have hothers := ih htail (before ++ [v])
    rw [List.append_assoc, List.singleton_append] at hothers
    have hafter := delimited_flatMap (fun v => separator ++ (renderAt indent depth v).toList) items
      hrest
    have hitem := (hv before .value _ (.inl rfl) hafter).of_space hseparator
    have hcomma : ∀ cs, Reads limit (',' :: cs) ⟨.list before :: stack, .commaOrClose⟩ cs
        ⟨.list before :: stack, .value⟩ := fun cs => reads_token (scans_comma cs) rfl
    simp only [List.flatMap_cons, List.cons_append, List.append_assoc]
    exact ((hcomma _).trans hitem).trans hothers

/-- A field of a record in writing. -/
def fieldText (indent : Option String) (depth : Nat) (f : String × Value) : List Char :=
  (quote f.1 ++ ": " ++ renderAt indent depth f.2).toList

/-- A name and a value are stored in a record that has no such name. -/
theorem reads_field {f : String × Value} {before : Fields} {expect : Expect}
    (hexpect : before = [] ∧ expect = .nameOrClose ∨ expect = .name before)
    (hnew : f.1 ∉ before.map Prod.fst)
    (hf : ReadsBack limit (renderAt indent depth f.2).toList (.record before f.1 :: stack) f.2)
    (hrest : Delimited rest) :
    Reads limit (fieldText indent depth f ++ rest) ⟨stack, expect⟩ rest
      ⟨.record (before ++ [f]) f.1 :: stack, .commaOrClose⟩ := by
  have hname : ∀ cs, Reads limit ((quote f.1).toList ++ cs) ⟨stack, expect⟩ cs
      ⟨stack, .colon before f.1⟩ := fun cs => by
    refine reads_token (scans_quote f.1 cs) ?_
    rcases hexpect with ⟨rfl, rfl⟩ | rfl <;> rfl
  have hcolon : ∀ cs, Reads limit (':' :: cs) ⟨stack, .colon before f.1⟩ cs
      ⟨.record before f.1 :: stack, .value⟩ := fun cs => reads_token (scans_colon cs) rfl
  have hblank : ∀ c ∈ [' '], isSpace c = true := List.forall_mem_singleton.2 rfl
  have hvalue := (hf .value rest (.inl rfl) hrest).of_space hblank
  have hset : before.set f.1 f.2 = before ++ [f] := by
    have hhas : before.has f.1 = false := by
      rw [← Bool.not_eq_true, Fields.has, List.any_eq_true]
      rintro ⟨g, hg, heq⟩
      exact hnew (List.mem_map.2 ⟨g, hg, by simpa using heq⟩)
    rw [Fields.set, hhas]
    rfl
  rw [fieldText, String.toList_append, String.toList_append, List.append_assoc, List.append_assoc,
    ← hset]
  exact ((hname _).trans (hcolon _)).trans hvalue

/-- Fields that follow others, each behind a comma, join them. -/
theorem reads_fields (hseparator : ∀ c ∈ separator, isSpace c = true) {fields : Fields}
    (hfields : ∀ f ∈ fields, ∀ before,
      ReadsBack limit (renderAt indent depth f.2).toList (.record before f.1 :: stack) f.2)
    (hrest : Delimited rest) (before : Fields) (name : String)
    (hdistinct : Fields.Distinct (before ++ fields)) :
    ∃ name', Reads limit
      ((fields.flatMap fun f => ',' :: (separator ++ fieldText indent depth f)) ++ rest)
      ⟨.record before name :: stack, .commaOrClose⟩ rest
      ⟨.record (before ++ fields) name' :: stack, .commaOrClose⟩ := by
  induction fields generalizing before name with
  | nil =>
    rw [List.append_nil]
    exact ⟨name, Reads.refl _ _⟩
  | cons f fields ih =>
    obtain ⟨hf, htail⟩ := List.forall_mem_cons.1 hfields
    have hnew : f.1 ∉ before.map Prod.fst := by
      rw [Fields.Distinct, List.map_append, List.map_cons] at hdistinct
      exact fun hmem => (List.nodup_append.1 hdistinct).2.2 _ hmem _ (List.mem_cons_self ..) rfl
    have happend : before ++ [f] ++ fields = before ++ f :: fields := by simp
    obtain ⟨name', hothers⟩ := ih htail (before ++ [f]) f.1 (by rwa [happend])
    rw [happend] at hothers
    have hafter := delimited_flatMap (fun f => separator ++ fieldText indent depth f) fields hrest
    have hfield := (reads_field (.inr rfl) hnew (hf before) hafter).of_space hseparator
    have hcomma : ∀ cs, Reads limit (',' :: cs) ⟨.record before name :: stack, .commaOrClose⟩ cs
        ⟨stack, .name before⟩ := fun cs => reads_token (scans_comma cs) rfl
    simp only [List.flatMap_cons, List.cons_append, List.append_assoc]
    exact ⟨name', ((hcomma _).trans hfield).trans hothers⟩

end

/-- A value of one token is read back. -/
theorem readsBack_token {text : List Char} {v : Value} {t : Token} (ht : t ≠ .closeList)
    (hbegin : State.begin limit stack t = .ok (State.accept v stack))
    (h : ∀ rest, Delimited rest → Scans (text ++ rest) [t] rest) :
    ReadsBack limit text stack v := fun _ rest hexpect hrest =>
  reads_token (h rest hrest) ((step_begin hexpect ht).trans hbegin)

section

variable {indent : Option String} (hindent : Blank indent) (depth : Nat)

include hindent

/-- A list is read back if its items are. -/
theorem readsBack_list (hopen : stack.length < limit) {items : List Value}
    (hitems : ∀ v ∈ items, ∀ before,
      ReadsBack limit (renderAt indent (depth + 1) v).toList (.list before :: stack) v) :
    ReadsBack limit (renderAt indent depth (.list items)).toList stack (.list items) := by
  intro expect rest hexpect hrest
  have hstart : ∀ cs, Reads limit ('[' :: cs) ⟨stack, expect⟩ cs
      ⟨.list [] :: stack, .valueOrClose⟩ := fun cs =>
    reads_token (scans_openList cs) (step_openList hexpect hopen)
  have hend : ∀ before expect', expect' = .valueOrClose ∨ expect' = .commaOrClose →
      Reads limit (']' :: rest) ⟨.list before :: stack, expect'⟩ rest
        (State.accept (.list before) stack) := fun before expect' h =>
    reads_token (scans_closeList rest) (by rcases h with rfl | rfl <;> rfl)
  rw [renderAt, renderItems_eq]
  cases items with
  | nil =>
    have htext : (enclose indent depth "[" "]" []).toList ++ rest = '[' :: ']' :: rest := by
      simp [enclose]
    rw [List.map_nil, htext]
    exact (hstart _).trans (hend [] .valueOrClose (.inl rfl))
  | cons v items =>
    obtain ⟨before, separator, after, ⟨hbefore, hseparator, hafter⟩, htext⟩ :=
      exists_enclose hindent depth "[" "]" (renderAt indent (depth + 1) v)
        (items.map (renderAt indent (depth + 1)))
    obtain ⟨hv, htail⟩ := List.forall_mem_cons.1 hitems
    have hclosing : Delimited (after ++ ("]".toList ++ rest)) :=
      delimited_append hafter (delimited_cons (.inr (.inr (.inl rfl))) rest)
    have hothers := delimited_flatMap
      (fun w => separator ++ (renderAt indent (depth + 1) w).toList) items hclosing
    rw [List.map_cons, htext, List.flatMap_map]
    simp only [List.append_assoc]
    exact (((hstart _).trans ((hv [] .valueOrClose _ (.inr rfl) hothers).of_space hbefore)).trans
      (reads_items hseparator htail hclosing [v])).trans
        ((hend (v :: items) .commaOrClose (.inr rfl)).of_space hafter)

/-- A record is read back if the values of its fields are. -/
theorem readsBack_record (hopen : stack.length < limit) {fields : Fields}
    (hdistinct : fields.Distinct) (hfields : ∀ f ∈ fields, ∀ before,
      ReadsBack limit (renderAt indent (depth + 1) f.2).toList (.record before f.1 :: stack) f.2) :
    ReadsBack limit (renderAt indent depth (.record fields)).toList stack (.record fields) := by
  intro expect rest hexpect hrest
  have hstart : ∀ cs, Reads limit ('\x7b' :: cs) ⟨stack, expect⟩ cs ⟨stack, .nameOrClose⟩ :=
    fun cs => reads_token (scans_openRecord cs) (step_openRecord hexpect hopen)
  have hend : ∀ before name, Reads limit ('\x7d' :: rest)
      ⟨.record before name :: stack, .commaOrClose⟩ rest (State.accept (.record before) stack) :=
    fun before name => reads_token (scans_closeRecord rest) rfl
  rw [renderAt, renderFields_eq]
  cases fields with
  | nil =>
    have htext : (enclose indent depth "\x7b" "\x7d" []).toList ++ rest =
        '\x7b' :: '\x7d' :: rest := by simp [enclose]
    rw [List.map_nil, htext]
    exact (hstart _).trans (reads_token (scans_closeRecord rest) rfl)
  | cons f fields =>
    obtain ⟨before, separator, after, ⟨hbefore, hseparator, hafter⟩, htext⟩ :=
      exists_enclose hindent depth "\x7b" "\x7d"
        (quote f.1 ++ ": " ++ renderAt indent (depth + 1) f.2)
        (fields.map fun f => quote f.1 ++ ": " ++ renderAt indent (depth + 1) f.2)
    obtain ⟨hf, htail⟩ := List.forall_mem_cons.1 hfields
    have hclosing : Delimited (after ++ ("\x7d".toList ++ rest)) :=
      delimited_append hafter (delimited_cons (.inr (.inr (.inr rfl))) rest)
    have hothers := delimited_flatMap (fun f => separator ++ fieldText indent (depth + 1) f) fields
      hclosing
    have hfirst := (reads_field (.inl ⟨rfl, rfl⟩) List.not_mem_nil (hf []) hothers).of_space hbefore
    obtain ⟨name, hjoined⟩ := reads_fields hseparator htail hclosing [f] f.1 hdistinct
    rw [List.map_cons, htext, List.flatMap_map]
    simp only [List.append_assoc]
    exact (((hstart _).trans hfirst).trans hjoined).trans ((hend _ name).of_space hafter)

end

/-- **What is written for a plain value is read back**, if not too many lists and records are
open. -/
theorem Plain.readsBack {n : Nat} {v : Value} (h : Plain n v) {indent : Option String}
    (hindent : Blank indent) (depth : Nat) (hlimit : n + stack.length ≤ limit) :
    ReadsBack limit (renderAt indent depth v).toList stack v := by
  induction h generalizing depth stack with
  | null =>
    rw [renderAt]
    exact readsBack_token (t := .literal .null) nofun rfl fun rest _ =>
      scans_token rfl rfl (by simp; omega)
  | bool b =>
    refine readsBack_token (t := .literal (.bool b)) nofun rfl fun rest _ => ?_
    cases b <;>
    · rw [renderAt]
      exact scans_token rfl rfl (by simp; omega)
  | @int _ i short =>
    rw [renderAt]
    exact readsBack_token (t := .literal (.int i)) nofun rfl fun rest => scans_int short
  | real x =>
    rw [renderAt]
    exact readsBack_token (t := .literal (.real x)) nofun rfl fun rest => scans_number x
  | text s =>
    rw [renderAt]
    exact readsBack_token (t := .text s) nofun rfl fun rest _ => scans_quote s rest
  | list _ ih =>
    exact readsBack_list hindent depth (by omega) fun v hv before =>
      ih v hv (depth + 1) (by rw [List.length_cons]; omega)
  | record distinct _ ih =>
    exact readsBack_record hindent depth (by omega) distinct fun f hf before =>
      ih f hf (depth + 1) (by rw [List.length_cons]; omega)

/-- **The text of a plain value is read as the value.** -/
theorem readWithin_render {v : Value} (h : Plain limit v) {indent : Option String}
    (hindent : Blank indent) : readWithin limit (render indent v) = .ok v := by
  have hread : ReadsBack limit (renderAt indent 0 v).toList [] v := h.readsBack hindent 0 le_rfl
  obtain ⟨ts, hts, hsteps⟩ := hread .value [] (.inl rfl) nofun
  rw [List.append_nil] at hts
  rw [readWithin, render, hts.tokens_eq, hsteps]
  rfl

end

end Json
end SpaceCurve
