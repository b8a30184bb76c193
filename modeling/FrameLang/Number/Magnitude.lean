/-!
Nonnegative binary64 numbers as bit patterns without the sign.

The patterns below `infinity` are the finite numbers in increasing order, so rounding to the nearest
number is rounding to the nearest pattern, and a tie goes to the even pattern. All arithmetic is
exact: every finite number is a whole multiple of `2 ^ -1074`, the unit used here.
-/

set_option autoImplicit false

namespace FrameLang.Number.Magnitude

/-- The bits that a pattern spends on the significand. -/
def significandBits : Nat := 52

/-- The number of patterns in one binade, and the significand of the first of them. -/
def binadeSize : Nat := Nat.pow 2 significandBits

/-- The pattern of infinity, the first one that stands for no finite number. -/
def infinity : Nat := 2047 * binadeSize

/-- What the sign adds to a pattern. -/
def signBit : Nat := Nat.pow 2 63

/-- The number one in the units of `units`. -/
def unitsPerOne : Nat := Nat.pow 2 1074

/-- The number with the given pattern, in units of `2 ^ -1074`. The pattern of infinity reads as
the power of two at which rounding overflows. -/
def units (pattern : Nat) : Nat :=
  if pattern < binadeSize then pattern
  else (binadeSize + pattern % binadeSize) * Nat.pow 2 (pattern / binadeSize - 1)

/-- A quotient rounded to the nearest whole number, a tie to the even one. -/
def divideToEven (numerator denominator : Nat) : Nat :=
  let quotient := numerator / denominator
  let doubled := 2 * (numerator % denominator)
  if doubled < denominator ∨ (doubled = denominator ∧ quotient % 2 = 0) then quotient
  else quotient + 1

/-- The pattern nearest to `numerator / denominator` units, a tie to the even pattern. Adding the
rounded significand to the scaled binade also covers a carry into the next binade and the step
from subnormal to normal numbers. -/
def nearest (numerator denominator : Nat) : Nat :=
  let binade := (numerator / denominator).log2 - significandBits
  min (binade * binadeSize + divideToEven numerator (denominator * Nat.pow 2 binade)) infinity

end FrameLang.Number.Magnitude
