/-
# What a double is nearest to

Every number in the neighbourhood of a double rounds to that double. The scale that rounding
chooses is the least at which the significand fits, so it is the scale of the double itself,
unless the number lies below a power of two and the double on it: then it is one less, and the
significand carries into the exponent field.
-/

import Mathlib.Tactic.Ring
import Mathlib.Tactic.Linarith
import TableStore.Binary64.Nearest
import TableStore.Binary64.Shortest

namespace TableStore.Binary64

/-- Rounding gives the natural number that a quotient is at most a half away from, where an exact
half is only allowed to an even one. -/
theorem roundHalfEven_eq {numerator denominator nearest : Nat} (positive : 0 < denominator)
    (low : 2 * (nearest * denominator) ≤ 2 * numerator + denominator)
    (high : 2 * numerator ≤ 2 * (nearest * denominator) + denominator)
    (tie : 2 * (nearest * denominator) = 2 * numerator + denominator ∨
      2 * numerator = 2 * (nearest * denominator) + denominator → nearest % 2 = 0) :
    roundHalfEven numerator denominator = nearest := by
  have split := Nat.div_add_mod' numerator denominator
  have rest := Nat.mod_lt numerator positive
  simp only [roundHalfEven]
  generalize numerator / denominator = floor at split ⊢
  generalize numerator % denominator = remainder at split rest ⊢
  have atMost : nearest ≤ floor + 1 := by
    by_contra beyond
    have : (floor + 2) * denominator ≤ nearest * denominator :=
      Nat.mul_le_mul_right _ (by omega)
    rw [Nat.add_mul] at this
    omega
  have atLeast : floor ≤ nearest := by
    by_contra beyond
    have : (nearest + 1) * denominator ≤ floor * denominator := Nat.mul_le_mul_right _ (by omega)
    rw [Nat.add_mul] at this
    omega
  obtain rfl | rfl : nearest = floor ∨ nearest = floor + 1 := by omega
  · split_ifs <;> omega
  · rw [Nat.add_mul, Nat.one_mul] at low high tie
    split_ifs <;> omega

/-- The logarithm bounds a positive number from both sides. -/
theorem log2_bounds {n : Nat} (positive : 0 < n) : 2 ^ n.log2 ≤ n ∧ n < 2 ^ (n.log2 + 1) :=
  ⟨Nat.log2_self_le (by omega), Nat.lt_log2_self⟩

/-- The scale of a positive quotient is the least at which its significand fits. -/
theorem scaleOf_bounds {numerator denominator : Nat} (up : 0 < numerator)
    (down : 0 < denominator) :
    numerator <<< 1074 < 2 * fractions * (denominator * 2 ^ scaleOf numerator denominator) ∧
      (scaleOf numerator denominator = 0 ∨
        fractions * (denominator * 2 ^ scaleOf numerator denominator) ≤ numerator <<< 1074) := by
  obtain ⟨upLow, upHigh⟩ := log2_bounds up
  obtain ⟨downLow, downHigh⟩ := log2_bounds down
  simp only [scaleOf, Nat.shiftLeft_eq]
  generalize numerator.log2 = n at *
  generalize denominator.log2 = d at *
  have width : fractions = 2 ^ 52 := by decide
  -- The exponent is too large for anyone to evaluate the power by mistake.
  generalize least : 1074 = steps
  by_cases subnormal : n + 1021 < d
  · have guess : n + 1021 - d = 0 := by omega
    have fits : numerator * 2 ^ steps < 2 * fractions * (denominator * 2 ^ 0) := by
      calc numerator * 2 ^ steps < 2 ^ (n + 1) * 2 ^ steps :=
            Nat.mul_lt_mul_of_pos_right upHigh (Nat.two_pow_pos _)
        _ = 2 ^ 53 * 2 ^ (n + 1022) := by
            rw [← pow_add, ← pow_add, show n + 1 + steps = 53 + (n + 1022) by omega]
        _ ≤ 2 ^ 53 * 2 ^ d := Nat.mul_le_mul_left _ (Nat.pow_le_pow_right (by decide) (by omega))
        _ ≤ 2 * fractions * (denominator * 2 ^ 0) := by
            rw [width, pow_zero, mul_one]
            exact Nat.mul_le_mul_left _ downLow
    have quotient : numerator * 2 ^ steps / (denominator * 2 ^ 0) < 2 * fractions :=
      (Nat.div_lt_iff_lt_mul (Nat.mul_pos down (Nat.two_pow_pos _))).mpr fits
    rw [guess, if_pos quotient]
    exact ⟨fits, .inl rfl⟩
  · obtain ⟨guess, sum⟩ : ∃ guess, guess = n + 1021 - d := ⟨_, rfl⟩
    rw [← sum]
    have wide : numerator * 2 ^ steps < 2 * fractions * (denominator * 2 ^ (guess + 1)) := by
      calc numerator * 2 ^ steps < 2 ^ (n + 1) * 2 ^ steps :=
            Nat.mul_lt_mul_of_pos_right upHigh (Nat.two_pow_pos _)
        _ = 2 ^ 53 * (2 ^ d * 2 ^ (guess + 1)) := by
            rw [← pow_add, ← pow_add, ← pow_add,
              show n + 1 + steps = 53 + (d + (guess + 1)) by omega]
        _ ≤ 2 ^ 53 * (denominator * 2 ^ (guess + 1)) :=
            Nat.mul_le_mul_left _ (Nat.mul_le_mul_right _ downLow)
        _ = 2 * fractions * (denominator * 2 ^ (guess + 1)) := by rw [width]; ring
    have full : fractions * (denominator * 2 ^ guess) ≤ numerator * 2 ^ steps := by
      calc fractions * (denominator * 2 ^ guess) ≤ 2 ^ 52 * (2 ^ (d + 1) * 2 ^ guess) := by
            rw [width]
            exact Nat.mul_le_mul_left _ (Nat.mul_le_mul_right _ downHigh.le)
        _ = 2 ^ n * 2 ^ steps := by
            rw [← pow_add, ← pow_add, ← pow_add, show 52 + (d + 1 + guess) = n + steps by omega]
        _ ≤ numerator * 2 ^ steps := Nat.mul_le_mul_right _ upLow
    have unit : 0 < denominator * 2 ^ guess := Nat.mul_pos down (Nat.two_pow_pos _)
    split
    · next small =>
        refine ⟨?_, .inr full⟩
        exact (Nat.div_lt_iff_lt_mul unit).mp small
    · next large =>
        refine ⟨wide, .inr ?_⟩
        have : 2 * fractions * (denominator * 2 ^ guess) ≤ numerator * 2 ^ steps :=
          (Nat.le_div_iff_mul_le unit).mp (by omega)
        calc fractions * (denominator * 2 ^ (guess + 1))
            = 2 * fractions * (denominator * 2 ^ guess) := by ring
          _ ≤ numerator * 2 ^ steps := this

/-- A magnitude is made of its scale and its significand. -/
theorem magnitude_eq (x : Binary64) : x.magnitude = x.scale * fractions + x.significand := by
  have split := Nat.div_add_mod' x.magnitude fractions
  simp only [scale, significand]
  split_ifs with subnormal
  · simp [subnormal]
  · obtain ⟨field, number⟩ : ∃ field, x.magnitude / fractions = field + 1 :=
      Nat.exists_eq_succ_of_ne_zero subnormal
    rw [number, Nat.add_mul] at split
    rw [number, Nat.add_sub_cancel]
    omega

/-- A significand has at most fifty-three bits. -/
theorem significand_lt (x : Binary64) : x.significand < 2 * fractions := by
  have rest : x.magnitude % fractions < fractions := Nat.mod_lt _ (by decide)
  simp only [significand]
  split_ifs with subnormal
  · have := (Nat.div_eq_zero_iff_lt (by decide : 0 < fractions)).mp subnormal
    omega
  · omega

/-- Only at the least scale can the significand have fewer bits than that. -/
theorem scale_eq_zero_or (x : Binary64) : x.scale = 0 ∨ fractions ≤ x.significand := by
  simp only [scale, significand]
  split_ifs with subnormal
  · exact .inl (by rw [subnormal])
  · exact .inr (Nat.le_add_right _ _)

/-- A double other than zero has a positive significand. -/
theorem significand_pos {x : Binary64} (nonzero : x.isZero = false) : 0 < x.significand := by
  have magnitude : x.magnitude ≠ 0 := by simpa [isZero] using nonzero
  rcases scale_eq_zero_or x with least | normal
  · have := magnitude_eq x
    rw [least] at this
    omega
  · exact Nat.lt_of_lt_of_le (by decide) normal

/-- What it means for a number to lie in a stretch. -/
theorem Neighbourhood.contains_iff {stretch : Neighbourhood} {point : Nat} :
    stretch.contains point = true ↔
      stretch.low ≤ point ∧ point ≤ stretch.high ∧
        (stretch.closed = false → stretch.low < point ∧ point < stretch.high) := by
  cases closed : stretch.closed
  · simp only [contains, closed, Bool.false_eq_true, if_false, Bool.and_eq_true, decide_eq_true_eq,
      forall_const]
    omega
  · simp [contains, closed]

/-- The step from a double up to the next, in units of `2 ^ -1074` over a denominator. -/
def step (x : Binary64) (denominator : Nat) : Nat :=
  denominator * 2 ^ x.scale

/-- The half of the step from a double down to the next, in quarters of the step up from it. -/
def halfBelow (x : Binary64) : Nat :=
  if x.significand = fractions ∧ 0 < x.scale then 1 else 2

/-- The steps below a double are smaller only if it is a power of two above the least scale. -/
theorem halfBelow_cases (x : Binary64) :
    x.halfBelow = 1 ∧ x.significand = fractions ∧ 0 < x.scale ∨
      x.halfBelow = 2 ∧ (x.significand = fractions → x.scale = 0) := by
  unfold halfBelow
  split <;> omega

/-- A quotient in the neighbourhood of a double, measured in quarters of the double's step. -/
theorem quarters_of_contains {x : Binary64} (nonzero : x.isZero = false)
    {numerator denominator : Nat}
    (inside : (x.neighbourhood.refine denominator).contains (numerator <<< 1076) = true) :
    4 * (x.significand * x.step denominator) ≤
        4 * (numerator <<< 1074) + x.halfBelow * x.step denominator ∧
      4 * (numerator <<< 1074) ≤
        4 * (x.significand * x.step denominator) + 2 * x.step denominator ∧
      (x.significand % 2 = 1 →
        4 * (x.significand * x.step denominator) <
            4 * (numerator <<< 1074) + x.halfBelow * x.step denominator ∧
          4 * (numerator <<< 1074) <
            4 * (x.significand * x.step denominator) + 2 * x.step denominator) := by
  have positive := significand_pos nonzero
  have below := halfBelow_cases x
  obtain ⟨low, high, strict⟩ := Neighbourhood.contains_iff.mp inside
  have lowEnd : (x.neighbourhood.refine denominator).low =
      4 * (x.significand * x.step denominator) - x.halfBelow * x.step denominator := by
    rw [← Nat.mul_assoc, ← Nat.sub_mul]
    simp only [Neighbourhood.refine, neighbourhood, Nat.shiftLeft_eq, step, halfBelow]
    ring
  have highEnd : (x.neighbourhood.refine denominator).high =
      4 * (x.significand * x.step denominator) + 2 * x.step denominator := by
    simp only [Neighbourhood.refine, neighbourhood, Nat.shiftLeft_eq, step]
    ring
  have isClosed : (x.neighbourhood.refine denominator).closed = decide (x.significand % 2 = 0) :=
    rfl
  have point : numerator <<< 1076 = 4 * (numerator <<< 1074) := by
    rw [show 1076 = 1074 + 2 by omega, Nat.shiftLeft_add, Nat.shiftLeft_eq _ 2]
    ring
  have room : x.halfBelow * x.step denominator ≤ 4 * (x.significand * x.step denominator) := by
    rw [← Nat.mul_assoc]
    exact Nat.mul_le_mul_right _ (by omega)
  rw [lowEnd, point] at low
  rw [highEnd, point] at high
  rw [lowEnd, highEnd, point, isClosed] at strict
  refine ⟨by omega, high, fun odd => ?_⟩
  have ends := strict (by simp [odd])
  omega

/-- A quotient in the neighbourhood of a double has the magnitude of the double. -/
theorem magnitudeOf_eq {x : Binary64} (nonzero : x.isZero = false) {numerator denominator : Nat}
    (down : 0 < denominator)
    (inside : (x.neighbourhood.refine denominator).contains (numerator <<< 1076) = true) :
    magnitudeOf numerator denominator = x.magnitude := by
  obtain ⟨low, high, strict⟩ := quarters_of_contains nonzero inside
  have positive := significand_pos nonzero
  have bounded := significand_lt x
  have normal := scale_eq_zero_or x
  have below := halfBelow_cases x
  have even : fractions % 2 = 0 := by decide
  have unit : 0 < x.step denominator := Nat.mul_pos down (Nat.two_pow_pos _)
  have oneStep : x.step denominator ≤ x.significand * x.step denominator :=
    Nat.le_mul_of_pos_left _ positive
  have up : 0 < numerator := by
    by_contra none
    have zero : numerator = 0 := by omega
    rw [zero, Nat.zero_shiftLeft] at low
    rcases below with ⟨half, -⟩ | ⟨half, -⟩ <;> rw [half] at low <;> omega
  obtain ⟨fits, full⟩ := scaleOf_bounds up down
  simp only [magnitude_eq x, magnitudeOf, Nat.shiftLeft_eq denominator]
  generalize scaleOf numerator denominator = scale at fits full ⊢
  generalize numerator <<< 1074 = point at low high strict fits full ⊢
  have notAbove : scale ≤ x.scale := by
    by_contra above
    have full := full.resolve_left (by omega)
    have twice : 2 * x.step denominator ≤ denominator * 2 ^ scale := by
      rw [step, Nat.mul_left_comm, ← pow_succ']
      exact Nat.mul_le_mul_left _ (Nat.pow_le_pow_right (by decide) (by omega))
    have : fractions * (2 * x.step denominator) ≤ fractions * (denominator * 2 ^ scale) :=
      Nat.mul_le_mul_left _ twice
    have : (4 * x.significand + 2) * x.step denominator <
        4 * (fractions * (2 * x.step denominator)) := by
      have : 4 * x.significand + 2 < 8 * fractions := by omega
      calc (4 * x.significand + 2) * x.step denominator
          < 8 * fractions * x.step denominator := Nat.mul_lt_mul_of_pos_right this unit
        _ = 4 * (fractions * (2 * x.step denominator)) := by ring
    rw [Nat.add_mul, Nat.mul_assoc] at this
    omega
  rcases Nat.eq_or_lt_of_le notAbove with rfl | lower
  · have nearest : roundHalfEven point (x.step denominator) = x.significand := by
      have half : x.halfBelow * x.step denominator ≤ 2 * x.step denominator :=
        Nat.mul_le_mul_right _ (by omega)
      refine roundHalfEven_eq unit (by omega) (by omega) fun tie => ?_
      by_contra odd
      have ends := strict (by omega)
      omega
    exact congrArg (x.scale * fractions + ·) nearest
  · have normal := normal.resolve_left (by omega)
    obtain ⟨small, isSmall⟩ : ∃ small, small = denominator * 2 ^ scale := ⟨_, rfl⟩
    rw [← isSmall] at fits ⊢
    have twice : 2 * small ≤ x.step denominator := by
      rw [isSmall, step, Nat.mul_left_comm, ← pow_succ']
      exact Nat.mul_le_mul_left _ (Nat.pow_le_pow_right (by decide) (by omega))
    have spread : fractions * (2 * small) ≤ fractions * x.step denominator :=
      Nat.mul_le_mul_left _ twice
    have regroup : 2 * fractions * small = fractions * (2 * small) := by ring
    have power : x.significand = fractions := by
      by_contra other
      have half : x.halfBelow = 2 := by omega
      have : (fractions + 1) * x.step denominator ≤ x.significand * x.step denominator :=
        Nat.mul_le_mul_right _ (by omega)
      rw [Nat.add_mul] at this
      rw [half] at low
      omega
    have half : x.halfBelow = 1 := by omega
    rw [power, half] at low
    have next : x.scale = scale + 1 := by
      by_contra further
      have fourTimes : 4 * small ≤ x.step denominator := by
        rw [isSmall, step, Nat.mul_left_comm, show 4 * 2 ^ scale = 2 ^ (scale + 2) by ring]
        exact Nat.mul_le_mul_left _ (Nat.pow_le_pow_right (by decide) (by omega))
      have : fractions * (4 * small) ≤ fractions * x.step denominator :=
        Nat.mul_le_mul_left _ fourTimes
      have : fractions * (4 * small) = 2 * (fractions * (2 * small)) := by ring
      have : x.step denominator ≤ fractions * x.step denominator :=
        Nat.le_mul_of_pos_left _ (by decide)
      omega
    have double : x.step denominator = 2 * small := by
      rw [isSmall, step, next]
      ring
    have nearest : roundHalfEven point small = 2 * fractions := by
      rw [double] at low
      refine roundHalfEven_eq (by omega) (by omega) (by omega) fun _ => by omega
    rw [nearest, next, power]
    ring

/-- The pattern of a double is its magnitude, lifted by the sign bit below zero. -/
theorem toNat_bits (x : Binary64) :
    x.bits.toNat = if x.isNegative then signBit + x.magnitude else x.magnitude := by
  have bound := x.bits.toNat_lt
  by_cases negative : signBit ≤ x.bits.toNat
  · rw [isNegative, if_pos (decide_eq_true negative), magnitude]
    unfold signBit at *
    omega
  · rw [isNegative, if_neg (by simpa using negative), magnitude]
    unfold signBit at *
    omega

/-- A double is its sign and its magnitude. -/
theorem ofMagnitude_magnitude (x : Binary64) : ofMagnitude x.isNegative x.magnitude = x := by
  rw [ofMagnitude, ← toNat_bits, UInt64.ofNat_toNat]

end TableStore.Binary64
