/-
# Equality and order of doubles

Doubles are ordered by sign and magnitude: below zero a greater magnitude is less, and the two zeros
are equal. Every finite double is a whole number of least subnormal steps, and between finite
doubles the order is that of these numbers.
-/

import TableStore.Proofs.Binary64.Nearest

namespace TableStore.Binary64

/-- Doubles with the same pattern are the same. -/
theorem eq_of_bits {x y : Binary64} (same : x.bits = y.bits) : x = y := by
  cases x
  cases y
  exact congrArg Binary64.mk same

/-- The sign is the first bit. -/
theorem isNegative_eq_msb (x : Binary64) : x.isNegative = x.bits.toBitVec.msb := by
  rw [BitVec.msb_eq_decide]
  rfl

/-- A finite double is a number. -/
theorem isNaN_of_isFinite {x : Binary64} (finite : x.isFinite = true) : x.isNaN = false := by
  simp only [isFinite, isNaN, decide_eq_true_eq, decide_eq_false_iff_not] at *
  omega

/-- Finite doubles are equal exactly when they are one double or both are zeros. -/
theorem same_iff {x y : Binary64} (xFinite : x.isFinite = true)
    (yFinite : y.isFinite = true) :
    x.same y = true ↔ x = y ∨ x.isZero = true ∧ y.isZero = true := by
  have bits : x.bits = y.bits ↔ x = y := ⟨eq_of_bits, congrArg Binary64.bits⟩
  simp [same, isNaN_of_isFinite xFinite, isNaN_of_isFinite yFinite, bits]

/-- The magnitude under the sign. Both zeros have none. -/
def signedMagnitude (x : Binary64) : Int :=
  if x.isNegative then -x.magnitude else x.magnitude

/-- Numeric order, in which a pattern that is not a number stands nowhere. -/
def less (x y : Binary64) : Bool :=
  !x.isNaN && !y.isNaN && x.signedMagnitude < y.signedMagnitude

/-- The absolute value of a finite double, in units of `2 ^ -1074`. -/
def absoluteSteps (x : Binary64) : Nat :=
  x.significand <<< x.scale

/-- The number that a finite double is, in units of `2 ^ -1074`. -/
def signedSteps (x : Binary64) : Int :=
  if x.isNegative then -x.absoluteSteps else x.absoluteSteps

variable {x y : Binary64}

/-- Only a zero is zero steps from zero. -/
theorem absoluteSteps_pos (nonzero : x.isZero = false) : 0 < x.absoluteSteps := by
  rw [absoluteSteps, Nat.shiftLeft_eq]
  exact Nat.mul_pos (significand_pos nonzero) (Nat.two_pow_pos _)

/-- A greater magnitude is further from zero: at the same scale its significand is greater, and at a
greater scale even the least significand outweighs the greatest one below. -/
theorem absoluteSteps_lt (less : x.magnitude < y.magnitude) :
    x.absoluteSteps < y.absoluteSteps := by
  have bounded := significand_lt x
  have alsoBounded := significand_lt y
  have normal := scale_eq_zero_or y
  rw [magnitude_eq x, magnitude_eq y] at less
  rw [absoluteSteps, absoluteSteps, Nat.shiftLeft_eq, Nat.shiftLeft_eq]
  have notBelow : x.scale ≤ y.scale := by
    by_contra below
    have room : (y.scale + 1) * fractions ≤ x.scale * fractions :=
      Nat.mul_le_mul_right _ (by omega)
    have ownNormal := (scale_eq_zero_or x).resolve_left (by omega)
    rw [Nat.add_mul] at room
    omega
  rcases Nat.eq_or_lt_of_le notBelow with same | above
  · rw [same] at less ⊢
    exact Nat.mul_lt_mul_of_pos_right (by omega) (Nat.two_pow_pos _)
  · have full := normal.resolve_left (by omega)
    calc x.significand * 2 ^ x.scale
        < 2 * fractions * 2 ^ x.scale := Nat.mul_lt_mul_of_pos_right bounded (Nat.two_pow_pos _)
      _ = fractions * 2 ^ (x.scale + 1) := by ring
      _ ≤ y.significand * 2 ^ y.scale :=
          Nat.mul_le_mul full (Nat.pow_le_pow_right (by decide) above)

/-- The distance from zero grows with the magnitude and with nothing else. -/
theorem absoluteSteps_lt_iff : x.absoluteSteps < y.absoluteSteps ↔ x.magnitude < y.magnitude := by
  refine ⟨fun steps => ?_, absoluteSteps_lt⟩
  rcases Nat.lt_trichotomy x.magnitude y.magnitude with less | same | more
  · exact less
  · have alike : x.absoluteSteps = y.absoluteSteps := by
      simp only [absoluteSteps, significand, scale, same]
    omega
  · have back := absoluteSteps_lt more
    omega

/-- Signed magnitudes are in the order of the numbers. -/
theorem signedSteps_lt_iff :
    x.signedSteps < y.signedSteps ↔ x.signedMagnitude < y.signedMagnitude := by
  have upwards := @absoluteSteps_lt_iff x y
  have downwards := @absoluteSteps_lt_iff y x
  have zero : ∀ z : Binary64, z.magnitude = 0 ↔ z.absoluteSteps = 0 := by
    intro z
    cases isZero : z.isZero with
    | true =>
        have none : z.magnitude = 0 := of_decide_eq_true isZero
        simp [none, absoluteSteps, significand]
    | false =>
        have some : z.magnitude ≠ 0 := of_decide_eq_false isZero
        have positive := absoluteSteps_pos isZero
        omega
  have xZero := zero x
  have yZero := zero y
  unfold signedSteps signedMagnitude
  split <;> split <;> omega

/-- Between finite doubles, the order is that of the numbers they are. -/
theorem less_iff_signedSteps_lt (xFinite : x.isFinite = true) (yFinite : y.isFinite = true) :
    x.less y = true ↔ x.signedSteps < y.signedSteps := by
  rw [less, isNaN_of_isFinite xFinite, isNaN_of_isFinite yFinite, signedSteps_lt_iff]
  simp

end TableStore.Binary64
