import SpaceCurve.Decimal.Binary64

/-!
# The shortest decimal of a float

`digits` finds the least number of significant digits with which some decimal lies in the interval
of reals that round to a float, and of these decimals the nearest. `text` writes it: positionally
and with at least one decimal from `1e-4` up to, not including, `1e16`, otherwise with a signed
exponent of at least two digits.
-/

set_option autoImplicit false

namespace SpaceCurve
namespace Shortest

/-- The reals that round to one float, in quarters of its unit: from `low` to `high` around
`value`, times `2^exponent`. The ends belong to the interval when `closed`. -/
structure Interval where
  low : Nat
  value : Nat
  high : Nat
  exponent : Int
  closed : Bool

/-- The interval of the float `mantissa · 2^exponent`. At a power of two the neighbour below is
only half as far. -/
def Interval.ofMantissa (mantissa : Nat) (exponent : Int) : Interval :=
  let below := if mantissa == Nat.pow 2 52 && exponent != -1074 then 1 else 2
  { low := 4 * mantissa - below
    value := 4 * mantissa
    high := 4 * mantissa + 2
    exponent := exponent - 2
    closed := mantissa % 2 == 0 }

/-- The factors that bring `a · 2^q` and `n · 10^p` to the same unit: `a` is multiplied by the
first, `n` by the second. -/
def commonScale (q p : Int) : Nat × Nat :=
  (Nat.pow 2 q.toNat * Nat.pow 10 (-p).toNat, Nat.pow 2 (-q).toNat * Nat.pow 10 p.toNat)

/-- Whether `n · 10^p` lies in the interval. -/
def Interval.holds (i : Interval) (n : Nat) (p : Int) : Bool :=
  let (f, g) := commonScale i.exponent p
  if i.closed then i.low * f ≤ n * g && n * g ≤ i.high * f
  else i.low * f < n * g && n * g < i.high * f

/-- The grid point of `10^p` at or below the value. -/
def Interval.below (i : Interval) (p : Int) : Nat :=
  let (f, g) := commonScale i.exponent p
  i.value * f / g

/-- Whether the grid point after `n` is nearer to the value than `n`; a tie goes to even. -/
def Interval.upperNearer (i : Interval) (n : Nat) (p : Int) : Bool :=
  let (f, g) := commonScale i.exponent p
  let twice := 2 * (i.value * f)
  let middle := (2 * n + 1) * g
  middle < twice || (middle == twice && n % 2 == 1)

/-- The point of the grid `10^p` to write for the interval, if one lies in it. -/
def Interval.pick? (i : Interval) (p : Int) : Option Nat :=
  let n := i.below p
  match i.holds n p, i.holds (n + 1) p with
  | true, true => some (if i.upperNearer n p then n + 1 else n)
  | true, false => some n
  | false, true => some (n + 1)
  | false, false => none

/-- The least `p` with `mantissa · 2^exponent < 10^p`, searched upward from an estimate that is
never too large. -/
def magnitude (mantissa : Nat) (exponent : Int) : Int :=
  let bits : Int := mantissa.log2 + exponent
  let start : Int := bits * 30103 / 100000 - 1
  let candidates := (List.range 5).map fun (k : Nat) => start + k
  let fits (p : Int) : Bool :=
    let (f, g) := commonScale exponent p
    mantissa * f < g
  (candidates.find? fits).getD (start + 5)

/-- The significand and the power of ten of the shortest decimal of `mantissa · 2^exponent`. -/
def digits (mantissa : Nat) (exponent : Int) : Nat × Int :=
  let i := Interval.ofMantissa mantissa exponent
  let top := magnitude mantissa exponent
  let found := (List.range 17).findSome? fun (k : Nat) =>
    let p := top - (k + 1)
    (i.pick? p).map fun n => (n, p)
  found.getD (i.below (top - 17), top - 17)

/-- The digits without zeros at the end. -/
def dropTrailingZeros (ds : List Char) : List Char :=
  (ds.reverse.dropWhile (· == '0')).reverse

/-- The decimal digits of a number. -/
def natDigits (n : Nat) : List Char := Nat.toDigits 10 n

/-- The exponent of ten written after `e`: a sign and at least two digits. -/
def exponentText (x : Int) : String :=
  let ds := natDigits x.natAbs
  (if x < 0 then "e-" else "e+") ++ String.ofList (if ds.length < 2 then '0' :: ds else ds)

/-- The decimal `0.ds · 10^point` in writing. -/
def layout (ds : List Char) (point : Int) : String :=
  if -4 < point && point ≤ 16 then
    if point ≤ 0 then
      "0." ++ String.ofList (List.replicate (-point).toNat '0' ++ ds)
    else
      let whole := ds.take point.toNat
      let fraction := ds.drop point.toNat
      let padded := whole ++ List.replicate (point.toNat - whole.length) '0'
      String.ofList padded ++ "." ++ (if fraction.isEmpty then "0" else String.ofList fraction)
  else
    let fraction := ds.drop 1
    String.ofList (ds.take 1) ++ (if fraction.isEmpty then "" else "." ++ String.ofList fraction) ++
      exponentText (point - 1)

/-- The text of a float's size `mantissa · 2^exponent`. -/
def sizeText (mantissa : Nat) (exponent : Int) : String :=
  if mantissa == 0 then "0.0"
  else
    let (n, p) := digits mantissa exponent
    let ds := natDigits n
    layout (dropTrailingZeros ds) (p + ds.length)

/-- The spellings of what is not a finite number. -/
structure Specials where
  nan : String
  infinity : String

/-- The shortest text that reads back as the float. -/
def textWith (specials : Specials) (x : Float) : String :=
  match Binary64.parts? x with
  | some p => (if p.negative then "-" else "") ++ sizeText p.mantissa p.exponent
  | none =>
    if x.isNaN then specials.nan
    else if x < 0 then "-" ++ specials.infinity else specials.infinity

/-- The shortest text of a float in messages: `nan`, `inf` and `-inf` are its special words. -/
def text (x : Float) : String := textWith ⟨"nan", "inf"⟩ x

end Shortest
end SpaceCurve
