/-
# The shortest decimal that reads back

A double is written with the fewest significant digits that still name it: of all decimals which
are nearer to it than to its neighbours, those on the coarsest decimal grid, and of these the
nearest to the double. Lengths are measured in quarters of the least subnormal step, so every
comparison is one between natural numbers.
-/

import TableStore.Binary64.Basic

namespace TableStore.Binary64

/-- A decimal number `coefficient * 10 ^ exponent`. -/
structure Decimal where
  coefficient : Nat
  exponent : Int
  deriving DecidableEq, Repr

/-- The stretch of numbers that read as one double, with the double itself, in a common unit.
The ends belong to it when `closed` is set. -/
structure Neighbourhood where
  low : Nat
  centre : Nat
  high : Nat
  closed : Bool

/-- The neighbourhood of a double, in units of `2 ^ -1076`. The step below a power of two is half
the step above it; reading rounds halves to even, so an even significand owns both ends. -/
def neighbourhood (x : Binary64) : Neighbourhood :=
  let below := if x.significand = fractions ∧ 0 < x.scale then 1 else 2
  { low := (4 * x.significand - below) <<< x.scale
    centre := (4 * x.significand) <<< x.scale
    high := (4 * x.significand + 2) <<< x.scale
    closed := x.significand % 2 = 0 }

namespace Neighbourhood

/-- The same stretch in a unit `factor` times finer. -/
def refine (stretch : Neighbourhood) (factor : Nat) : Neighbourhood :=
  { stretch with
    low := stretch.low * factor
    centre := stretch.centre * factor
    high := stretch.high * factor }

/-- Whether a number reads as the double. -/
def contains (stretch : Neighbourhood) (point : Nat) : Bool :=
  if stretch.closed then stretch.low ≤ point && point ≤ stretch.high
  else stretch.low < point && point < stretch.high

/-- The multiple of `grid` in the stretch that is nearest to its centre, as a multiplier. Only
the two multiples around the centre can be that; of two equally near ones it is the even one. -/
def nearest? (stretch : Neighbourhood) (grid : Nat) : Option Nat :=
  let floor := stretch.centre / grid
  let twice := 2 * (stretch.centre % grid)
  match stretch.contains (floor * grid), stretch.contains ((floor + 1) * grid) with
  | true, true =>
      if twice < grid then some floor
      else if grid < twice then some (floor + 1)
      else some (floor + floor % 2)
  | true, false => some floor
  | false, true => some (floor + 1)
  | false, false => none

/-- The nearest multiple of `10 ^ exponent` in a stretch measured in units of `2 ^ -1076`. -/
def onGrid? (stretch : Neighbourhood) (exponent : Int) : Option Nat :=
  (stretch.refine (Nat.pow 10 (-exponent).toNat)).nearest? (Nat.pow 10 exponent.toNat <<< 1076)

/-- Try ever finer grids, starting with `exponent`. -/
def coarsest (stretch : Neighbourhood) : (grids : Nat) → (exponent : Int) → Decimal
  | 0, exponent => ⟨0, exponent⟩
  | grids + 1, exponent =>
      match stretch.onGrid? exponent with
      | some coefficient => ⟨coefficient, exponent⟩
      | none => stretch.coarsest grids (exponent - 1)

end Neighbourhood

/-- A power of ten above the double: its binary logarithm times `log₁₀ 2`, rounded up. -/
def startExponent (x : Binary64) : Int :=
  ((x.significand.log2 + x.scale : Nat) - 1074 : Int) * 30103 / 100000 + 2

/-- The shortest decimal for a finite double other than zero. Seventeen digits always suffice,
and the first grid lies at most two places above the leading digit. -/
def shortest (x : Binary64) : Decimal :=
  x.neighbourhood.coarsest 24 x.startExponent

end TableStore.Binary64
