import FrameLang.Number.Magnitude

/-!
The roundest decimal number that rounds to a given binary64 number.

With 1075 decimal places the number and both ends of the interval that rounds to it are whole, so the
search is over whole numbers: the coarsest power of ten with a multiple inside the interval, and on
that grid the multiple nearest to the number.
-/

set_option autoImplicit false

namespace FrameLang.Number

/-- The decimal places that write every midpoint of neighbouring numbers exactly. -/
def exactPlaces : Nat := 1075

/-- A number between the ends of the interval that rounds to it. `closed` says whether the ends
belong to the interval. -/
structure Neighbourhood where
  lower : Nat
  centre : Nat
  upper : Nat
  closed : Bool

/-- The interval that rounds to a positive pattern, in units of `10 ^ -exactPlaces`. Its ends are the
midpoints to the neighbouring patterns, which go to the even pattern. -/
def Neighbourhood.ofPattern (pattern : Nat) : Neighbourhood :=
  let scale := Nat.pow 5 exactPlaces
  let here := Magnitude.units pattern
  { lower := (Magnitude.units (pattern - 1) + here) * scale
    centre := 2 * here * scale
    upper := (here + Magnitude.units (pattern + 1)) * scale
    closed := pattern % 2 == 0 }

def Neighbourhood.contains (neighbourhood : Neighbourhood) (point : Nat) : Bool :=
  if neighbourhood.closed then neighbourhood.lower ≤ point && point ≤ neighbourhood.upper
  else neighbourhood.lower < point && point < neighbourhood.upper

/-- The multiple of `step` nearest to the centre among those inside, counted in steps. Of two equally
near ones the larger is taken. Only the two multiples around the centre need a look. -/
def Neighbourhood.multiple? (neighbourhood : Neighbourhood) (step : Nat) : Option Nat :=
  let below := neighbourhood.centre / step
  let above := below + 1
  match neighbourhood.contains (below * step), neighbourhood.contains (above * step) with
  | true, true =>
    if neighbourhood.centre - below * step < above * step - neighbourhood.centre then some below
    else some above
  | true, false => some below
  | false, true => some above
  | false, false => none

/-- A decimal number `digits * 10 ^ grid`, in units of `10 ^ -exactPlaces`. -/
structure GridPoint where
  digits : Nat
  grid : Nat

/-- The first hit on the grids `10 ^ grid`, `10 ^ (grid - 1)` and so on. The centre itself lies on
the finest one. -/
def Neighbourhood.roundestFrom (neighbourhood : Neighbourhood) : Nat → GridPoint
  | 0 => ⟨neighbourhood.centre, 0⟩
  | grid + 1 =>
    match neighbourhood.multiple? (Nat.pow 10 (grid + 1)) with
    | some digits => ⟨digits, grid + 1⟩
    | none => neighbourhood.roundestFrom grid

/-- The search starts at a power of ten above the interval: `10 ^ 302` exceeds `2 ^ 1000`. -/
def Neighbourhood.roundest (neighbourhood : Neighbourhood) : GridPoint :=
  neighbourhood.roundestFrom ((neighbourhood.upper.log2 + 1) * 302 / 1000 + 1)

end FrameLang.Number
