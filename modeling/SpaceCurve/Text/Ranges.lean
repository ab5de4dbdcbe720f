/-!
# Sets of characters as ranges

A class of characters is a list of closed ranges of code points. `inRanges` is membership; the
classes themselves (`Letter`, `Numeric`, `Printable`) list their ranges above ASCII and say by a
rule what holds below.
-/

set_option autoImplicit false

namespace SpaceCurve
namespace Text

/-- Whether one of the closed ranges holds the code point. -/
def inRanges (ranges : List (Nat × Nat)) (code : Nat) : Bool :=
  ranges.any fun r => r.1 ≤ code && code ≤ r.2

end Text
end SpaceCurve
