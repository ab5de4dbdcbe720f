/-!
# Exact views of a binary64 number

A finite float is `±mantissa · 2^exponent`; `parts?` is that triple. On it stand the roundings to
whole numbers (`floor`, `ceil`, `halfUp`, `truncate?`), the exact comparisons of a float with an
integer, and the conversion of an integer, which rounds to nearest and fails beyond the range.
-/

set_option autoImplicit false

namespace SpaceCurve
namespace Binary64

open Float.Model (UnpackedFloat)

/-- A finite number: `±mantissa · 2^exponent`. -/
structure Parts where
  negative : Bool
  mantissa : Nat
  exponent : Int
  deriving DecidableEq, Repr

/-- The exact value of a finite float; none for infinities and for what is not a number. -/
def parts? (x : Float) : Option Parts :=
  match x.toModel.unpack with
  | .finite .negative m e _ => some ⟨true, m, e⟩
  | .finite .positive m e _ => some ⟨false, m, e⟩
  | .zero .negative => some ⟨true, 0, 0⟩
  | .zero .positive => some ⟨false, 0, 0⟩
  | .infinity _ => none
  | .notANumber => none

/-- The quotient rounded up. -/
def ceilDiv (num den : Nat) : Nat := (num + den - 1) / den

/-- The greatest whole number that is not above `x`; infinities and `nan` stay. -/
def floor (x : Float) : Float :=
  match x.toModel.unpack with
  | .finite s m e _ =>
    if 0 ≤ e then x
    else match s with
      | .positive => Float.ofNat (m / Nat.pow 2 (-e).toNat)
      | .negative => -Float.ofNat (ceilDiv m (Nat.pow 2 (-e).toNat))
  | _ => x

/-- The least whole number that is not below `x`; infinities and `nan` stay. -/
def ceil (x : Float) : Float :=
  match x.toModel.unpack with
  | .finite s m e _ =>
    if 0 ≤ e then x
    else match s with
      | .positive => Float.ofNat (ceilDiv m (Nat.pow 2 (-e).toNat))
      | .negative => -Float.ofNat (m / Nat.pow 2 (-e).toNat)
  | _ => x

/-- The nearest whole number, a half going up. The difference to the floor is compared with a
half, not `x + 0.5` floored, so that the number just below a half still goes down. -/
def halfUp (x : Float) : Float :=
  if x - floor x ≥ 0.5 then ceil x else floor x

/-- The whole part of a finite float, towards zero. -/
def truncate? (x : Float) : Option Int :=
  (parts? x).map fun p =>
    let size : Nat :=
      if 0 ≤ p.exponent then p.mantissa * Nat.pow 2 p.exponent.toNat
      else p.mantissa / Nat.pow 2 (-p.exponent).toNat
    if p.negative then -(size : Int) else size

/-- The integer rounded to the nearest float, halves to even; none when it is out of range. -/
def ofInt? (i : Int) : Option Float :=
  let x := Float.ofInt i
  if x.isInf then none else some x

/-- How the float compares with the integer, exactly; none for `nan`. -/
def compareInt? (x : Float) (i : Int) : Option Ordering :=
  match x.toModel.unpack with
  | .notANumber => none
  | .infinity .positive => some .gt
  | .infinity .negative => some .lt
  | .zero _ => some (compare 0 i)
  | .finite s m e _ =>
    let signed : Int := match s with
      | .positive => m
      | .negative => -(m : Int)
    if 0 ≤ e then some (compare (signed * Nat.pow 2 e.toNat) i)
    else some (compare signed (i * Nat.pow 2 (-e).toNat))

/-- The float nearest to `π`. -/
def pi : Float := 3.141592653589793

/-- The number `2π` that one turn measures. -/
def tau : Float := 2.0 * pi

end Binary64
end SpaceCurve
