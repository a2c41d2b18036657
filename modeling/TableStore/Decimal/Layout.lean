/-
# Layouts of decimal numbers

A decimal is given by its significant digits and the place of the first of them. A layout says
for which places the digits are written in full and for which the place is written as an
exponent.
-/

namespace TableStore.Decimal

/-- The places of the first digit, as powers of ten, that are written without an exponent. -/
structure Layout where
  leastPlain : Int
  greatestPlain : Int

/-- Put the point after the first `count` digits; a number has a digit on each side of it. -/
def withPoint (digits : List Char) (count : Nat) : List Char :=
  let whole := digits.take count ++ List.replicate (count - digits.length) '0'
  let fraction := digits.drop count
  whole ++ '.' :: (if fraction.isEmpty then ['0'] else fraction)

/-- The digits in full, the first of them at place `10 ^ place`. -/
def plain (digits : List Char) (place : Int) : List Char :=
  if place < 0 then '0' :: '.' :: List.replicate (-place - 1).toNat '0' ++ digits
  else withPoint digits (place.toNat + 1)

/-- The digits with a point after the first, if there are more, and a signed exponent. -/
def scientific (digits : List Char) (place : Int) : List Char :=
  let mantissa := if digits.length ≤ 1 then digits else withPoint digits 1
  mantissa ++ 'e' :: (if place < 0 then '-' else '+') :: Nat.toDigits 10 place.natAbs

/-- Write a number by its digits and the place of the first of them. -/
def Layout.write (layout : Layout) (digits : List Char) (place : Int) : List Char :=
  if layout.leastPlain ≤ place ∧ place ≤ layout.greatestPlain then plain digits place
  else scientific digits place

end TableStore.Decimal
