import SpaceCurve.Proofs.Arguments
import SpaceCurve.Proofs.Evaluation
import SpaceCurve.Proofs.Spacing

/-!
# Parameters on the command line

An equation is evaluated from the command line at a parameter that a flag gives.  The parameter may
be any numeral.  But it is read by three readers: the first moves the equation behind a separator,
the second decides what is a flag, and the last reads the numeral.  Only digits with at most a point
before the last of them are a negative number for the second; `-1e5`, `-inf` and `-5.` are flags
that it does not know.

## What is here

* `float?_of_minus` — a numeral that begins with a minus sign goes on as no flag does.
* `equals_not_mem_of_parse` — in a text that parses there is no value of a flag.
* `runLine_parameter` — for every equation and every numeral: the value is printed if the numeral
  does not begin with a minus sign, is a negative number in the narrow sense, or has a blank in it,
  and otherwise the flag is said to lack its value.
-/

set_option autoImplicit false

namespace SpaceCurve

/-! ## Numerals with a minus sign -/

namespace Numeral

theorem unpad_of_front {a b : Char} (ha : isPadding a = false) (hb : isPadding b = false)
    (rest : List Char) : ∃ more, unpad (a :: b :: rest) = a :: b :: more := by
  have hfront : (a :: b :: rest).dropWhile isPadding = a :: b :: rest := by simp [ha]
  rw [unpad, hfront, List.reverse_cons, List.reverse_cons, List.append_assoc, List.dropWhile_append]
  split
  · exact ⟨[], by simp [hb]⟩
  · exact ⟨(rest.reverse.dropWhile isPadding).reverse, by simp⟩

/-- What follows the minus sign of a numeral is none of these characters. -/
theorem float?_of_minus {v : String} {c : Char} {rest : List Char}
    (hv : v.toList = '-' :: c :: rest) (hc : c ∈ ['-', '=', 'h', 't', 'v']) :
    float? v = none := by
  obtain ⟨hpadding, hascii, hdigit, hpoint, hunderscore, hi, hn⟩ : isPadding c = false ∧
      toAscii c = c ∧ c.isDigit = false ∧ c ≠ '.' ∧ c ≠ '_' ∧ c.toLower ≠ 'i' ∧
      c.toLower ≠ 'n' := by
    simp only [List.mem_cons, List.not_mem_nil, or_false] at hc
    rcases hc with rfl | rfl | rfl | rfl | rfl <;> decide
  obtain ⟨more, hunpad⟩ := unpad_of_front (by decide : isPadding '-' = false) hpadding rest
  have hprepare : prepare v.toList =
      (dropUnderscores false (more.map toAscii)).map fun body => (true, c :: body) := by
    rw [prepare, hv, hunpad, List.map_cons, List.map_cons, hascii,
      (by decide : toAscii '-' = '-')]
    simp [dropUnderscores, hdigit]
    rfl
  have hsize : ∀ body, size? (c :: body) = none := by
    intro body
    simp [size?, spanDigits, List.span, List.span.loop, hdigit, hpoint]
  rw [float?, hprepare]
  cases dropUnderscores false (more.map toAscii) with
  | none => rfl
  | some body =>
    have hword : ∀ word : String, word.toList.head? = some 'i' ∨ word.toList.head? = some 'n' →
        String.ofList ((c :: body).map Char.toLower) ≠ word := by
      rintro word hhead rfl
      rw [String.toList_ofList] at hhead
      rcases hhead with h | h
      · exact hi (Option.some.inj h)
      · exact hn (Option.some.inj h)
    simp only [Option.map_some, bind, Option.bind]
    split
    · next heq => exact absurd heq (hword _ (.inl rfl))
    · next heq => exact absurd heq (hword _ (.inl rfl))
    · next heq => exact absurd heq (hword _ (.inr rfl))
    · rw [hsize]

/-- A numeral that begins with a minus sign goes on as no flag does. -/
theorem exists_of_float? {v : String} {t : Float} {rest : List Char} (h : float? v = some t)
    (hv : v.toList = '-' :: rest) :
    ∃ c more, rest = c :: more ∧ c ∉ ['-', '=', 'h', 't', 'v'] := by
  cases rest with
  | nil =>
    obtain rfl : v = "-" := String.toList_inj.1 hv
    have hnone : float? "-" = none := by cbv
    cases hnone.symm.trans h
  | cons c more =>
    refine ⟨c, more, rfl, fun hc => ?_⟩
    rw [float?_of_minus hv hc] at h
    cases h

end Numeral

/-! ## Equations -/

theorem Lexer.Written.exists_of_mem {lexemes : List Lexeme} {text : List Char}
    (h : Lexer.Written lexemes text) {c : Char} (hc : c ∈ text) (hblank : Text.isBlank c = false) :
    ∃ l run, Lexer.Spells l run ∧ c ∈ run := by
  induction h with
  | nil => cases hc
  | blank hd _ ih =>
    rcases List.mem_cons.1 hc with rfl | hc
    · cases hblank.symm.trans hd
    · exact ih hc
  | lexeme hs _ ih =>
    rcases List.mem_append.1 hc with hc | hc
    · exact ⟨_, _, hs, hc⟩
    · exact ih hc

/-- In a text that parses there is no value of a flag. -/
theorem equals_not_mem_of_parse {s : String} {e : Equation}
    (h : Equation.parse (.text s) = .ok e) : '=' ∉ s.toList := by
  intro hmem
  obtain ⟨tokens, w, hreading⟩ := exists_reading h
  have hwritten := (Lexer.tokenize_eq_ok_iff.1 hreading.tokens_eq).written
  obtain ⟨l, run, hspells, hrun⟩ := hwritten.exists_of_mem hmem (by decide)
  have hnone : ∀ sign ∈ Lexer.signs, '=' ∉ sign.2 := by
    decide
  exact hnone _ (hspells.mem_signs hrun (by decide) (by decide)) hrun

theorem ne_separator_of_parse {s : String} {e : Equation}
    (h : Equation.parse (.text s) = .ok e) : s ≠ Command.separator := by
  rintro rfl
  obtain ⟨root, hroot, -⟩ := map_eq_ok_iff.1 h
  have hnone : (parseText Command.separator.toList).toOption.isNone = true := by
    decide +kernel
  rw [hroot] at hnone
  cases hnone

namespace Command

/-- A text that parses is an equation for the evaluation, unless it is one of its flags. -/
theorem isEquation_of_parse {s : String} {e : Equation} (h : Equation.parse (.text s) = .ok e)
    (hname : s ∉ ["-h", "--help", "-t", "--ast"]) : IsEquation .evaluate s := by
  refine isEquation_of (ne_separator_of_parse h) (fun entry hentry he => hname ?_) ?_
  · exact he ▸ (by decide : ∀ entry ∈ Flag.table (flags .evaluate),
      entry.1 ∈ ["-h", "--help", "-t", "--ast"]) entry hentry
  · rintro entry - - value rfl
    exact equals_not_mem_of_parse h (by simp)

/-- The parameter alone is an equation. -/
theorem exists_parse_parameter : ∃ e, Equation.parse (.text "t") = .ok e := by
  have hsome : (Equation.parse (.text "t")).toOption.isSome = true := by decide +kernel
  cases h : Equation.parse (.text "t") with
  | ok e => exact ⟨e, rfl⟩
  | error cause => simp [h, Except.toOption] at hsome

/-! ## Parameters -/

/-- Digits of any script, at least one. -/
def IsDigits (cs : List Char) : Prop := cs ≠ [] ∧ ∀ c ∈ cs, (Text.decimalDigit? c).isSome = true

/-- Digits, perhaps with a point before the last of them. -/
inductive IsDecimal : List Char → Prop
  | whole {digits : List Char} (h : IsDigits digits) : IsDecimal digits
  | point {digits fraction : List Char} (h : digits = [] ∨ IsDigits digits)
      (hfraction : IsDigits fraction) : IsDecimal (digits ++ '.' :: fraction)

/-- A numeral that is taken for the value of a flag.  A line end behind a decimal does not count. -/
inductive IsPlainNumeral (v : String) : Prop
  | unsigned (h : v.toList.head? ≠ some '-')
  | spaced (h : ' ' ∈ v.toList)
  | decimal {body ending : List Char} (h : IsDecimal body) (hending : ending = [] ∨ ending = ['\n'])
      (hv : v.toList = '-' :: (body ++ ending))

theorem areDigits_iff {cs : List Char} : areDigits cs = true ↔ IsDigits cs := by
  cases cs <;> simp [areDigits, IsDigits]

theorem IsDigits.ne_of_mem {cs : List Char} (h : IsDigits cs) {c d : Char} (hc : c ∈ cs)
    (hd : Text.decimalDigit? d = none) : c ≠ d := by
  rintro rfl
  have hsome := h.2 c hc
  rw [hd] at hsome
  cases hsome

/-- A decimal is what the test for a negative number asks for behind the sign. -/
theorem isDecimal_iff {body : List Char} :
    (areDigits body || ((body.takeWhile (· != '.')).isEmpty ||
      areDigits (body.takeWhile (· != '.'))) &&
        areDigits ((body.dropWhile (· != '.')).drop 1)) = true ↔ IsDecimal body := by
  simp only [Bool.or_eq_true, Bool.and_eq_true, areDigits_iff, List.isEmpty_iff]
  constructor
  · rintro (h | ⟨hdigits, hfraction⟩)
    · exact .whole h
    · have hsplit : body.takeWhile (· != '.') ++ body.dropWhile (· != '.') = body :=
        List.takeWhile_append_dropWhile
      have hhead := List.head?_dropWhile_not (· != '.') body
      cases hrest : body.dropWhile (· != '.') with
      | nil =>
        rw [hrest] at hfraction
        exact absurd rfl hfraction.1
      | cons c fraction =>
        rw [hrest] at hsplit hhead hfraction
        obtain rfl : c = '.' := by simpa using hhead
        rw [← hsplit]
        exact .point hdigits hfraction
  · rintro (h | ⟨hdigits, hfraction⟩)
    · exact .inl h
    · rename_i digits fraction
      have hpoint : ∀ c ∈ digits, (c != '.') = true := by
        intro c hc
        rcases hdigits with rfl | hdigits
        · cases hc
        · exact bne_iff_ne.2 (hdigits.ne_of_mem hc (by decide))
      have hspan := @Lexer.span_append (· != '.') digits ('.' :: fraction) hpoint (by simp)
      rw [hspan.1, hspan.2]
      exact .inr ⟨hdigits, hfraction⟩

theorem IsDecimal.ne_of_mem {body : List Char} (h : IsDecimal body) {c d : Char} (hc : c ∈ body)
    (hd : Text.decimalDigit? d = none) (hpoint : '.' ≠ d) : c ≠ d := by
  cases h with
  | whole h => exact h.ne_of_mem hc hd
  | point h hfraction =>
    rcases List.mem_append.1 hc with hc | hc
    · rcases h with rfl | h
      · cases hc
      · exact h.ne_of_mem hc hd
    · rcases List.mem_cons.1 hc with rfl | hc
      · exact hpoint
      · exact hfraction.ne_of_mem hc hd

theorem isNegativeNumber_minus {rest : List Char} :
    isNegativeNumber ('-' :: rest) = true ↔
      IsDecimal (if rest.getLast? == some '\n' then rest.dropLast else rest) := isDecimal_iff

theorem isNegativeNumber_iff {text : List Char} :
    isNegativeNumber text = true ↔ ∃ body ending, IsDecimal body ∧
      (ending = [] ∨ ending = ['\n']) ∧ text = '-' :: (body ++ ending) := by
  constructor
  · intro h
    obtain ⟨rest, rfl⟩ : ∃ rest, text = '-' :: rest := by
      rw [isNegativeNumber.eq_def] at h
      split at h
      · exact ⟨_, rfl⟩
      · cases h
    have hbody := isNegativeNumber_minus.1 h
    split at hbody
    · next hlast =>
      refine ⟨_, ['\n'], hbody, .inr rfl, ?_⟩
      rw [List.dropLast_append_getLast? _ (beq_iff_eq.1 hlast)]
    · exact ⟨rest, [], hbody, .inl rfl, by rw [List.append_nil]⟩
  · rintro ⟨body, ending, hbody, rfl | rfl, rfl⟩
    · have hlast : ¬ (body.getLast? == some '\n') = true := fun h =>
        hbody.ne_of_mem (List.mem_of_getLast? (beq_iff_eq.1 h)) (by decide) (by decide) rfl
      rw [List.append_nil, isNegativeNumber_minus, if_neg hlast]
      exact hbody
    · rw [isNegativeNumber_minus, if_pos (by simp), List.dropLast_concat]
      exact hbody

theorem isPlainNumeral_iff {v : String} :
    IsPlainNumeral v ↔
      looksLikeFlag v = false ∨ isNegativeNumber v.toList = true ∨ ' ' ∈ v.toList := by
  rw [isNegativeNumber_iff, looksLikeFlag_eq, beq_eq_false_iff_ne]
  constructor
  · rintro (h | h | ⟨h, hending, hv⟩)
    · exact .inl h
    · exact .inr (.inr h)
    · exact .inr (.inl ⟨_, _, h, hending, hv⟩)
  · rintro (h | ⟨body, ending, h, hending, hv⟩ | h)
    · exact .unsigned h
    · exact .decimal h hending hv
    · exact .spaced h

instance (v : String) : Decidable (IsPlainNumeral v) :=
  decidable_of_iff _ isPlainNumeral_iff.symm

section

variable {v : String} {t : Float}

theorem ne_separator_of_float? (hv : Numeral.float? v = some t) : v ≠ separator := by
  rintro rfl
  have hseparator : separator.toList = ['-', '-'] := rfl
  obtain ⟨c, more, hrest, hc⟩ := Numeral.exists_of_float? hv hseparator
  obtain ⟨rfl, -⟩ := List.cons.inj hrest
  exact hc (by simp)

/-- A numeral has the same class before the command and behind it. -/
theorem classify_numeral (hv : Numeral.float? v = some t) {known : List Flag}
    (hknown : known ∈ [commonFlags, flags .evaluate]) :
    classify known v = .ok (if IsPlainNumeral v then .plain else .unknown) := by
  cases hlooks : looksLikeFlag v with
  | false =>
    rw [classify_of_not_looksLikeFlag hlooks, if_pos (isPlainNumeral_iff.2 (.inl hlooks))]
  | true =>
    obtain ⟨rest, hrest⟩ : ∃ rest, v.toList = '-' :: rest := by
      rw [looksLikeFlag_eq, beq_iff_eq] at hlooks
      exact List.head?_eq_some_iff.1 hlooks
    obtain ⟨c, more, rfl, hc⟩ := Numeral.exists_of_float? hv hrest
    have hsecond : ∀ known ∈ [commonFlags, flags .evaluate], ∀ entry ∈ Flag.table known,
        entry.1.toList[1]? ∈ ['-', '=', 'h', 't', 'v'].map some := by
      decide
    have hnames : ∀ entry ∈ Flag.table known, ¬ ['-', c] <+: entry.1.toList := by
      rintro entry hentry ⟨after, hafter⟩
      have hget := hsecond known hknown entry hentry
      rw [← hafter] at hget
      obtain ⟨d, hd, hdc⟩ := List.mem_map.1 hget
      obtain rfl : d = c := Option.some.inj hdc
      exact hc hd
    rw [classify_of_no_name hrest (fun h => hc (by simp [h])) (fun h => hc (by simp [h])) hnames]
    simp [isPlainNumeral_iff, hlooks]

variable {s : String} {e : Equation} {pieces : List (Given ⊕ String)}

theorem allowed_parameter (hv : Numeral.float? v = some t) :
    (Given.followed .parameter "-t" v).Allowed .evaluate :=
  ⟨by decide, rfl, _, classify_numeral hv (by simp)⟩

theorem plan_of_isPlain [Machine] (hs : IsEquation .evaluate s) (hv : Numeral.float? v = some t)
    (hgivens : givens pieces = [.followed .parameter "-t" v]) (hequations : equations pieces = [s])
    (hplain : IsPlainNumeral v) :
    plan ("evaluate" :: arguments pieces) = .command .evaluate false
      [.flag .parameter (some v), .word "expression" (.text s)] := by
  have hfits : (Given.followed .parameter "-t" v).Fits .evaluate :=
    ⟨allowed_parameter hv, ne_separator_of_float? hv,
      by rw [classify_numeral hv (by simp), if_pos hplain]⟩
  have hundecided : decide? (some .evaluate) (Given.followed .parameter "-t" v).use = none := by
    simp [Given.use, decide?, hv]
  have h := @plan_of_fits .evaluate pieces _ rfl (by simpa [hgivens] using hfits)
    (by simpa [hequations] using hs) (by rw [hequations]; rfl) (by simpa [hgivens] using hundecided)
  rw [hgivens, hequations] at h
  exact h

/-- A numeral that is taken for a flag leaves the flag in front of it without a value. -/
theorem plan_of_not_isPlain [Machine] (hs : IsEquation .evaluate s) (hv : Numeral.float? v = some t)
    (hgivens : givens pieces = [.followed .parameter "-t" v]) (hequations : equations pieces = [s])
    (hplain : ¬ IsPlainNumeral v) :
    plan ("evaluate" :: arguments pieces) =
      .settled (refuse (some .evaluate) (.expectsValue .parameter)) := by
  have hplan := @plan_arguments .evaluate pieces _ rfl
    (by simpa [hgivens] using allowed_parameter hv) (by simpa [hequations] using hs)
  rw [hgivens, hequations] at hplan
  have named : Named .evaluate "-t" .parameter := named_of_mem (by decide)
  have hclass : classify (flags .evaluate) v = .ok .unknown := by
    rw [classify_numeral hv (by simp), if_neg hplain]
  have hall : classifyAll (flags .evaluate) ["-t", v, separator, s] =
      .ok [("-t", .flag .parameter (isLong "-t") none), (v, .unknown), (separator, .separator),
        (s, .plain)] := by
    rw [classifyAll_cons named.ne_separator (classify_name named.looks named.found),
      classifyAll_cons (ne_separator_of_float? hv) hclass]
    rfl
  have hread : read (flags .evaluate) (words .evaluate)
      [("-t", .flag .parameter (isLong "-t") none), (v, .unknown), (separator, .separator),
        (s, .plain)] = ⟨[], [], words .evaluate, some (.expectsValue .parameter)⟩ := by
    rw [read]
    simp [expand, expandBare, Flag.takesValue]
  refine hplan.trans ?_
  show planCommand .evaluate false [] ["-t", v, separator, s] = _
  rw [planCommand, hall]
  simp only [hread]
  rfl

/-- One parameter, one line. -/
theorem runEvaluate_of_parameter (hparse : Equation.parse (.text s) = .ok e)
    (hv : Numeral.float? v = some t) {y : Float} (hy : e.evaluate (.real t) = .ok y) :
    runEvaluate false [.flag .parameter (some v), .word "expression" (.text s)] =
      .ok ⟨0, false, "t=" ++ Shortest.text t ++ ": " ++ Shortest.text y ++ "\n", ""⟩ := by
  have hword : wordAt "expression" [.flag .parameter (some v), .word "expression" (.text s)] =
      .text s := rfl
  have hparameters : parametersOf [.flag .parameter (some v), .word "expression" (.text s)] =
      [t] := by
    simp [parametersOf, valuesOf, hv]
  have hlines : valueLines e [t] = .ok ["t=" ++ Shortest.text t ++ ": " ++ Shortest.text y] := by
    simp [valueLines, hy, Except.bind, Except.map]
  have htext : ∀ line : String, linesText [line] = line ++ "\n" := by
    intro line
    simp [linesText, String.join]
  rw [runEvaluate, hword, hparse, hparameters]
  show ((valueLines e [t]).mapError _).bind _ = _
  rw [hlines, ← htext]
  rfl

/-- **When the value at a parameter is printed.**  Every text that parses has a value at every
numeral.  Whether the parameter is given before the equation or behind it, this value is printed,
and nothing else, just if the numeral is taken for the value of its flag; if it is taken for a flag
itself, the arguments are refused. -/
theorem runLine_parameter [Machine] (read : String → Option ByteArray)
    (hparse : Equation.parse (.text s) = .ok e) (hname : s ∉ ["-h", "--help", "-t", "--ast"])
    (hv : Numeral.float? v = some t) :
    ∃ y, e.evaluate (.real t) = .ok y ∧
      ∀ args ∈ [["evaluate", s, "-t", v], ["evaluate", "-t", v, s]],
        (runLine read args =
            .ok ⟨0, false, "t=" ++ Shortest.text t ++ ": " ++ Shortest.text y ++ "\n", ""⟩ ↔
          IsPlainNumeral v) ∧
        (¬ IsPlainNumeral v →
          runLine read args = .ok (refuse (some .evaluate) (.expectsValue .parameter))) := by
  obtain ⟨y, hy⟩ := exists_evaluate_of_parse hparse t
  have hs := isEquation_of_parse hparse hname
  have hrun : ∀ pieces, givens pieces = [.followed .parameter "-t" v] → equations pieces = [s] →
      (IsPlainNumeral v → runLine read ("evaluate" :: arguments pieces) =
        .ok ⟨0, false, "t=" ++ Shortest.text t ++ ": " ++ Shortest.text y ++ "\n", ""⟩) ∧
      (¬ IsPlainNumeral v → runLine read ("evaluate" :: arguments pieces) =
        .ok (refuse (some .evaluate) (.expectsValue .parameter))) := by
    intro pieces hgivens hequations
    refine ⟨fun hplain => ?_, fun hplain => ?_⟩
    · rw [runLine, plan_of_isPlain hs hv hgivens hequations hplain]
      exact runEvaluate_of_parameter hparse hv hy
    · rw [runLine, plan_of_not_isPlain hs hv hgivens hequations hplain]
  refine ⟨y, hy, fun args hargs => ?_⟩
  obtain ⟨pieces, hgivens, hequations, rfl⟩ : ∃ pieces,
      givens pieces = [.followed .parameter "-t" v] ∧ equations pieces = [s] ∧
        args = "evaluate" :: arguments pieces := by
    simp only [List.mem_cons, List.not_mem_nil, or_false] at hargs
    rcases hargs with rfl | rfl
    · exact ⟨[.inr s, .inl (.followed .parameter "-t" v)], rfl, rfl, rfl⟩
    · exact ⟨[.inl (.followed .parameter "-t" v), .inr s], rfl, rfl, rfl⟩
  obtain ⟨hplain, hrefused⟩ := hrun pieces hgivens hequations
  refine ⟨⟨fun h => ?_, hplain⟩, hrefused⟩
  by_contra hnot
  cases h.symm.trans (hrefused hnot)

/-- A million below zero: it is refused with an exponent, and printed without. -/
theorem runLine_parameter_million :
    letI := Machine.ample
    ∃ e t u y, Equation.parse (.text "t") = .ok e ∧ Numeral.float? "-1e6" = some t ∧
      Numeral.float? "-1000000" = some u ∧ e.evaluate (.real u) = .ok y ∧
      runLine (fun _ => none) ["evaluate", "t", "-t", "-1e6"] =
        .ok (refuse (some .evaluate) (.expectsValue .parameter)) ∧
      runLine (fun _ => none) ["evaluate", "-t", "-1000000", "t"] =
        .ok ⟨0, false, "t=" ++ Shortest.text u ++ ": " ++ Shortest.text y ++ "\n", ""⟩ := by
  let _ := Machine.ample
  have hname : "t" ∉ ["-h", "--help", "-t", "--ast"] := by decide
  obtain ⟨e, he⟩ := exists_parse_parameter
  obtain ⟨t, ht⟩ := Option.isSome_iff_exists.1
    (by decide +kernel : (Numeral.float? "-1e6").isSome = true)
  obtain ⟨u, hu⟩ := Option.isSome_iff_exists.1
    (by decide +kernel : (Numeral.float? "-1000000").isSome = true)
  obtain ⟨_, -, hrefused⟩ := runLine_parameter (fun _ => none) he hname ht
  obtain ⟨y, hy, hprinted⟩ := runLine_parameter (fun _ => none) he hname hu
  exact ⟨e, t, u, y, he, ht, hu, hy,
    (hrefused ["evaluate", "t", "-t", "-1e6"] (by simp)).2 (by decide +kernel),
    (hprinted ["evaluate", "-t", "-1000000", "t"] (by simp)).1.2 (by decide +kernel)⟩

/-- So the value at a parameter is not always printed. -/
theorem exists_parameter_refused :
    letI := Machine.ample
    ∃ e t y, Equation.parse (.text "t") = .ok e ∧ Numeral.float? "-1e5" = some t ∧
      e.evaluate (.real t) = .ok y ∧ runLine (fun _ => none) ["evaluate", "t", "-t", "-1e5"] ≠
        .ok ⟨0, false, "t=" ++ Shortest.text t ++ ": " ++ Shortest.text y ++ "\n", ""⟩ := by
  let _ := Machine.ample
  obtain ⟨e, he⟩ := exists_parse_parameter
  obtain ⟨t, ht⟩ := Option.isSome_iff_exists.1
    (by decide +kernel : (Numeral.float? "-1e5").isSome = true)
  obtain ⟨y, hy⟩ := exists_evaluate_of_parse he t
  have hplan : plan ["evaluate", "t", "-t", "-1e5"] =
      .settled (refuse (some .evaluate) (.expectsValue .parameter)) :=
    @plan_of_not_isPlain "-1e5" t "t" [.inr "t", .inl (.followed .parameter "-t" "-1e5")] _
      (isEquation_of_parse he (by decide)) ht rfl rfl (by decide +kernel)
  refine ⟨e, t, y, he, ht, hy, fun h => ?_⟩
  rw [runLine, hplan] at h
  cases h

end

end Command
end SpaceCurve
