/-
# The double nearest to a decimal

A decimal numeral denotes a rational number; reading it takes the double nearest to that number,
the one with the even significand where two are equally near. The quotient is rounded once, in
exact natural arithmetic.
-/

import TableStore.Binary64.Basic

namespace TableStore.Binary64

/-- The natural number nearest to a quotient, an exact half going to the even neighbour. -/
def roundHalfEven (numerator denominator : Nat) : Nat :=
  let floor := numerator / denominator
  let twice := 2 * (numerator % denominator)
  if twice < denominator then floor
  else if denominator < twice then floor + 1
  else floor + floor % 2

/-- A scale at which the quotient has a significand of fifty-three bits, or the least scale if
the quotient is too small for that. -/
def scaleOf (numerator denominator : Nat) : Nat :=
  let guess := numerator.log2 + 1021 - denominator.log2
  if (numerator <<< 1074) / (denominator <<< guess) < 2 * fractions then guess else guess + 1

/-- The magnitude nearest to a positive quotient. A significand that rounds up to a power of two
carries into the exponent field, which is the next magnitude. -/
def magnitudeOf (numerator denominator : Nat) : Nat :=
  let scale := scaleOf numerator denominator
  scale * fractions + roundHalfEven (numerator <<< 1074) (denominator <<< scale)

/-- The double nearest to `coefficient * 10 ^ exponent`, or nothing if that number is too large
for any. The two early answers keep absurd exponents from being multiplied out: a coefficient of
`b + 1` bits is at least `10 ^ (3 * b / 10)` and less than `10 ^ (b / 3 + 2)`. -/
def ofDecimal? (negative : Bool) (coefficient : Nat) (exponent : Int) : Option Binary64 :=
  if coefficient = 0 then some (ofMagnitude negative 0)
  else if 309 ≤ (3 * coefficient.log2 / 10 : Nat) + exponent then none
  else if (coefficient.log2 / 3 + 2 : Nat) + exponent < -325 then some (ofMagnitude negative 0)
  else
    let magnitude :=
      magnitudeOf (coefficient * Nat.pow 10 exponent.toNat) (Nat.pow 10 (-exponent).toNat)
    if magnitude < infinity then some (ofMagnitude negative magnitude) else none

end TableStore.Binary64
