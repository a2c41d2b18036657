/-
# Doubles as bit patterns

A double is its 64-bit pattern: a sign, eleven exponent bits and fifty-two fraction bits. Every
fact that the store needs about doubles is a fact about these natural numbers, so equality,
order, reading and writing are all decidable without floating-point arithmetic.
-/

namespace TableStore

/-- A double, given by its bit pattern. -/
structure Binary64 where
  /-- The sign bit, then the exponent field, then the fraction. -/
  bits : UInt64
  deriving DecidableEq, Repr

namespace Binary64

/-- The pattern of the sign bit alone; all magnitudes are below it. -/
def signBit : Nat :=
  0x8000000000000000

/-- The number of fractions under one exponent: a fraction has fifty-two bits. -/
def fractions : Nat :=
  0x10000000000000

/-- The first magnitude that is not finite; larger ones are not numbers. -/
def infinity : Nat :=
  0x7FF * fractions

/-- The pattern without its sign. Between doubles of one sign it grows with the absolute value. -/
def magnitude (x : Binary64) : Nat :=
  x.bits.toNat % signBit

/-- Whether the sign bit is set. -/
def isNegative (x : Binary64) : Bool :=
  signBit ≤ x.bits.toNat

/-- Whether the double is an ordinary number. -/
def isFinite (x : Binary64) : Bool :=
  x.magnitude < infinity

/-- Whether the double is not a number at all. -/
def isNaN (x : Binary64) : Bool :=
  infinity < x.magnitude

/-- Whether the double is one of the two zeros. -/
def isZero (x : Binary64) : Bool :=
  x.magnitude = 0

/-- The double with the given sign and magnitude. -/
def ofMagnitude (negative : Bool) (magnitude : Nat) : Binary64 :=
  ⟨UInt64.ofNat (if negative then signBit + magnitude else magnitude)⟩

/-- Numeric equality: the two zeros are equal, and a pattern that is not a number equals
nothing. -/
def same (x y : Binary64) : Bool :=
  !x.isNaN && !y.isNaN && (x.bits == y.bits || x.isZero && y.isZero)

/-- The number of doublings that the exponent field applies to the least subnormal step. -/
def scale (x : Binary64) : Nat :=
  x.magnitude / fractions - 1

/-- The integer significand. A finite double has the absolute value
`significand * 2 ^ scale / 2 ^ 1074`. -/
def significand (x : Binary64) : Nat :=
  if x.magnitude / fractions = 0 then x.magnitude else fractions + x.magnitude % fractions

end Binary64

end TableStore
