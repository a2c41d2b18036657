/-
# Decimals that name a double

A decimal names a double if it lies in the double's neighbourhood. Reading a decimal that names a
double gives the double, and the decimal that a double is written as names it. So a double is read
back from what it is written as, whatever zeros the layout has added or left out.
-/

import TableStore.Proofs.Binary64.Nearest

namespace TableStore.Binary64

/-- Whether the number `coefficient * 10 ^ exponent` reads as a double. -/
def Names (x : Binary64) (coefficient : Nat) (exponent : Int) : Prop :=
  (x.neighbourhood.refine (10 ^ (-exponent).toNat)).contains
    ((coefficient * 10 ^ exponent.toNat) <<< 1076) = true

/-- The two ends of the neighbourhood of a double, over the denominator of a decimal. -/
theorem Names.bounds {x : Binary64} {coefficient : Nat} {exponent : Int}
    (names : x.Names coefficient exponent) :
    x.neighbourhood.low * 10 ^ (-exponent).toNat ≤ (coefficient * 10 ^ exponent.toNat) <<< 1076 ∧
      (coefficient * 10 ^ exponent.toNat) <<< 1076 ≤
        x.neighbourhood.high * 10 ^ (-exponent).toNat :=
  ⟨(Neighbourhood.contains_iff.mp names).1, (Neighbourhood.contains_iff.mp names).2.1⟩

/-- In a unit twice as fine, a stretch holds the same numbers. -/
theorem Neighbourhood.contains_refine_congr {stretch : Neighbourhood}
    {factor point factor' point' : Nat} (positive : 0 < factor) (positive' : 0 < factor')
    (same : point * factor' = point' * factor) :
    (stretch.refine factor).contains point = (stretch.refine factor').contains point' := by
  have ends (bound : Nat) : (bound * factor ≤ point ↔ bound * factor' ≤ point') ∧
      (point ≤ bound * factor ↔ point' ≤ bound * factor') := by
    constructor
    · rw [← Nat.mul_le_mul_right_iff positive', same, Nat.mul_right_comm,
        Nat.mul_le_mul_right_iff positive]
    · rw [← Nat.mul_le_mul_right_iff positive', same, Nat.mul_right_comm,
        Nat.mul_le_mul_right_iff positive]
  have low := ends stretch.low
  have high := ends stretch.high
  rw [Bool.eq_iff_iff, contains_iff, contains_iff]
  simp only [refine, ← Nat.not_le, low, high]

/-- A factor can be taken into a shifted number. -/
theorem shiftLeft_mul (number factor shift : Nat) :
    number <<< shift * factor = (number * factor) <<< shift := by
  rw [Nat.shiftLeft_eq, Nat.shiftLeft_eq, Nat.mul_right_comm]

/-- A number is shifted by multiplying it with a shifted one. -/
theorem shiftLeft_eq_mul_one (number shift : Nat) : number <<< shift = number * (1 <<< shift) := by
  rw [Nat.shiftLeft_eq, Nat.shiftLeft_eq, Nat.one_mul]

/-- Shifting keeps the order of numbers. -/
theorem shiftLeft_le_iff {less more : Nat} (shift : Nat) :
    less <<< shift ≤ more <<< shift ↔ less ≤ more := by
  rw [Nat.shiftLeft_eq, Nat.shiftLeft_eq]
  exact Nat.mul_le_mul_right_iff (Nat.two_pow_pos _)

/-- Zeros at the end of the digits of a decimal can be exchanged for a greater exponent. -/
theorem names_shift {x : Binary64} {coefficient zeros : Nat} {exponent : Int} :
    x.Names (coefficient * 10 ^ zeros) exponent ↔ x.Names coefficient (exponent + zeros) := by
  refine Bool.eq_iff_iff.mp (Neighbourhood.contains_refine_congr ?_ ?_ ?_)
  · positivity
  · positivity
  have exponents : zeros + exponent.toNat + (-(exponent + zeros)).toNat =
      (exponent + zeros).toNat + (-exponent).toNat := by omega
  have powers : 10 ^ zeros * 10 ^ exponent.toNat * 10 ^ (-(exponent + zeros)).toNat =
      10 ^ (exponent + zeros).toNat * 10 ^ (-exponent).toNat := by
    rw [← pow_add, ← pow_add, ← pow_add, exponents]
  rw [shiftLeft_mul, shiftLeft_mul, Nat.mul_assoc coefficient, Nat.mul_assoc coefficient, powers,
    Nat.mul_assoc coefficient]

/-- A number below a power of two is below a power of ten with a third of the exponent. -/
theorem lt_ten_pow_log2 (n : Nat) : n < 10 ^ (n.log2 / 3 + 2) := by
  calc n < 2 ^ (n.log2 + 1) := Nat.lt_log2_self
    _ ≤ 2 ^ (3 * (n.log2 / 3 + 2)) := Nat.pow_le_pow_right (by decide) (by omega)
    _ = 8 ^ (n.log2 / 3 + 2) := by rw [pow_mul]; norm_num
    _ ≤ 10 ^ (n.log2 / 3 + 2) := Nat.pow_le_pow_left (by decide) _

/-- A number from a power of two on is at least a power of ten with three tenths of the exponent. -/
theorem ten_pow_log2_le {n : Nat} (positive : 0 < n) : 10 ^ (3 * n.log2 / 10) ≤ n := by
  have powers : (10 ^ (3 * n.log2 / 10)) ^ 10 ≤ (2 ^ n.log2) ^ 10 := by
    calc (10 ^ (3 * n.log2 / 10)) ^ 10 = 10 ^ (3 * n.log2 / 10 * 10) := by rw [pow_mul]
      _ ≤ 10 ^ (3 * n.log2) := Nat.pow_le_pow_right (by decide) (Nat.div_mul_le_self _ _)
      _ = 1000 ^ n.log2 := by rw [pow_mul]; norm_num
      _ ≤ 1024 ^ n.log2 := Nat.pow_le_pow_left (by decide) _
      _ = (2 ^ n.log2) ^ 10 := by rw [← pow_mul, Nat.mul_comm, pow_mul]; norm_num
  calc 10 ^ (3 * n.log2 / 10) ≤ 2 ^ n.log2 := (Nat.pow_le_pow_iff_left (by decide)).mp powers
    _ ≤ n := (log2_bounds positive).1

/-- The scale of a finite double. -/
theorem scale_le {x : Binary64} (finite : x.isFinite = true) : x.scale ≤ 2045 := by
  have below : x.magnitude < 0x7FF * fractions := of_decide_eq_true finite
  have field : x.magnitude / fractions < 0x7FF :=
    (Nat.div_lt_iff_lt_mul (by decide)).mpr below
  unfold scale
  omega

/-- The neighbourhood of a finite double ends before the first power of two that is none. -/
theorem neighbourhood_high_lt {x : Binary64} (finite : x.isFinite = true) :
    x.neighbourhood.high < 1 <<< 2100 := by
  have bounded := significand_lt x
  have width : 4 * x.significand + 2 < 2 ^ 55 := by
    have : 2 * fractions = 2 ^ 53 := by decide
    omega
  obtain ⟨top, exponent⟩ : ∃ top, 2100 = 55 + top := ⟨2045, rfl⟩
  have scale : x.scale ≤ top := by
    have := scale_le finite
    omega
  simp only [neighbourhood, Nat.shiftLeft_eq, Nat.one_mul, exponent]
  calc (4 * x.significand + 2) * 2 ^ x.scale < 2 ^ 55 * 2 ^ x.scale :=
        Nat.mul_lt_mul_of_pos_right width (Nat.two_pow_pos _)
    _ ≤ 2 ^ 55 * 2 ^ top := Nat.mul_le_mul_left _ (Nat.pow_le_pow_right (by decide) scale)
    _ = 2 ^ (55 + top) := (pow_add 2 55 top).symm

/-- The neighbourhood of a double other than zero does not reach down to zero. -/
theorem neighbourhood_low_pos {x : Binary64} (nonzero : x.isZero = false) :
    0 < x.neighbourhood.low := by
  have positive := significand_pos nonzero
  simp only [neighbourhood, Nat.shiftLeft_eq]
  refine Nat.mul_pos ?_ (Nat.two_pow_pos _)
  split <;> omega

/-- A decimal that names a finite double other than zero has a digit other than zero. -/
theorem Names.coefficient_pos {x : Binary64} (nonzero : x.isZero = false) {coefficient : Nat}
    {exponent : Int} (names : x.Names coefficient exponent) : 0 < coefficient := by
  by_contra none
  have zero : coefficient = 0 := by omega
  have low := names.bounds.1
  rw [zero, Nat.zero_mul, Nat.zero_shiftLeft] at low
  have : 0 < x.neighbourhood.low * 10 ^ (-exponent).toNat :=
    Nat.mul_pos (neighbourhood_low_pos nonzero) (Nat.pow_pos (by decide))
  omega

/-- Reading a decimal gives the double that it names, with the sign that is read before it. -/
theorem ofDecimal?_eq {x : Binary64} (finite : x.isFinite = true) (nonzero : x.isZero = false)
    {coefficient : Nat} {exponent : Int} (names : x.Names coefficient exponent) (negative : Bool) :
    ofDecimal? negative coefficient exponent = some (ofMagnitude negative x.magnitude) := by
  have positive := names.coefficient_pos nonzero
  obtain ⟨low, high⟩ := names.bounds
  have notLarge : ¬309 ≤ (3 * coefficient.log2 / 10 : Nat) + exponent := by
    intro large
    have power : 10 ^ 309 * 10 ^ (-exponent).toNat ≤ coefficient * 10 ^ exponent.toNat := by
      calc 10 ^ 309 * 10 ^ (-exponent).toNat
          = 10 ^ (309 + (-exponent).toNat) := (pow_add _ _ _).symm
        _ ≤ 10 ^ (3 * coefficient.log2 / 10 + exponent.toNat) :=
            Nat.pow_le_pow_right (by decide) (by omega)
        _ = 10 ^ (3 * coefficient.log2 / 10) * 10 ^ exponent.toNat := pow_add _ _ _
        _ ≤ coefficient * 10 ^ exponent.toNat :=
            Nat.mul_le_mul_right _ (ten_pow_log2_le positive)
    have beyond : (10 ^ 309) <<< 1076 * 10 ^ (-exponent).toNat <
        1 <<< 2100 * 10 ^ (-exponent).toNat := by
      calc (10 ^ 309) <<< 1076 * 10 ^ (-exponent).toNat
          = (10 ^ 309 * 10 ^ (-exponent).toNat) <<< 1076 := shiftLeft_mul _ _ _
        _ ≤ (coefficient * 10 ^ exponent.toNat) <<< 1076 := (shiftLeft_le_iff 1076).mpr power
        _ ≤ x.neighbourhood.high * 10 ^ (-exponent).toNat := high
        _ < 1 <<< 2100 * 10 ^ (-exponent).toNat :=
            Nat.mul_lt_mul_of_pos_right (neighbourhood_high_lt finite) (Nat.pow_pos (by decide))
    exact absurd (Nat.lt_of_mul_lt_mul_right beyond) (by decide +kernel)
  have notSmall : ¬(coefficient.log2 / 3 + 2 : Nat) + exponent < -325 := by
    intro small
    have power : coefficient * 10 ^ exponent.toNat * 10 ^ 326 ≤ 10 ^ (-exponent).toNat := by
      calc coefficient * 10 ^ exponent.toNat * 10 ^ 326
          ≤ 10 ^ (coefficient.log2 / 3 + 2) * 10 ^ exponent.toNat * 10 ^ 326 :=
            Nat.mul_le_mul_right _ (Nat.mul_le_mul_right _ (lt_ten_pow_log2 coefficient).le)
        _ = 10 ^ (coefficient.log2 / 3 + 2 + exponent.toNat + 326) := by
            rw [← pow_add, ← pow_add]
        _ ≤ 10 ^ (-exponent).toNat := Nat.pow_le_pow_right (by decide) (by omega)
    have beyond : coefficient * 10 ^ exponent.toNat * 10 ^ 326 ≤
        coefficient * 10 ^ exponent.toNat * (1 <<< 1076) := by
      calc coefficient * 10 ^ exponent.toNat * 10 ^ 326 ≤ 1 * 10 ^ (-exponent).toNat := by
            rwa [Nat.one_mul]
        _ ≤ x.neighbourhood.low * 10 ^ (-exponent).toNat :=
            Nat.mul_le_mul_right _ (neighbourhood_low_pos nonzero)
        _ ≤ (coefficient * 10 ^ exponent.toNat) <<< 1076 := low
        _ = coefficient * 10 ^ exponent.toNat * (1 <<< 1076) := shiftLeft_eq_mul_one _ _
    have nonzero : 0 < coefficient * 10 ^ exponent.toNat :=
      Nat.mul_pos positive (Nat.pow_pos (by decide))
    exact absurd (Nat.le_of_mul_le_mul_left beyond nonzero) (by decide +kernel)
  have magnitude : magnitudeOf (coefficient * 10 ^ exponent.toNat) (10 ^ (-exponent).toNat) =
      x.magnitude :=
    magnitudeOf_eq nonzero (Nat.pow_pos (by decide)) names
  simp only [ofDecimal?, if_neg (Nat.pos_iff_ne_zero.mp positive), if_neg notLarge,
    if_neg notSmall, Nat.pow_eq, magnitude, if_pos (of_decide_eq_true finite)]

namespace Neighbourhood

/-- The multiple that is chosen lies in the stretch. -/
theorem contains_of_nearest? {stretch : Neighbourhood} {grid multiplier : Nat}
    (chosen : stretch.nearest? grid = some multiplier) :
    stretch.contains (multiplier * grid) = true := by
  simp only [nearest?] at chosen
  split at chosen
  · next low high =>
      split_ifs at chosen with nearerBelow nearerAbove
      · rwa [← Option.some.inj chosen]
      · rwa [← Option.some.inj chosen]
      · rw [← Option.some.inj chosen]
        rcases Nat.mod_two_eq_zero_or_one (stretch.centre / grid) with even | odd
        · rwa [even, Nat.add_zero]
        · rwa [odd]
  · next low _ => rwa [← Option.some.inj chosen]
  · next _ high => rwa [← Option.some.inj chosen]
  · exact absurd chosen (by simp)

/-- A grid that is fine enough has a multiple between the low end of a stretch and its centre. -/
theorem nearest?_isSome {stretch : Neighbourhood} {grid : Nat} (positive : 0 < grid)
    (fine : stretch.low + grid ≤ stretch.centre) (above : stretch.centre < stretch.high) :
    (stretch.nearest? grid).isSome = true := by
  have split := Nat.div_add_mod' stretch.centre grid
  have rest := Nat.mod_lt stretch.centre positive
  have low : stretch.contains (stretch.centre / grid * grid) = true := by
    rw [contains_iff]
    omega
  simp only [nearest?, low]
  cases stretch.contains ((stretch.centre / grid + 1) * grid)
  · rfl
  · simp only
    split_ifs <;> rfl

/-- If one of the grids that are tried has a multiple in the stretch, then one that is at least as
coarse is taken, with its multiple. -/
theorem coarsest_eq {stretch : Neighbourhood} {grids finer : Nat} (tried : finer < grids)
    {exponent : Int} (hit : (stretch.onGrid? (exponent - finer)).isSome = true) :
    ∃ (steps : Nat) (coefficient : Nat), steps ≤ finer ∧
      stretch.onGrid? (exponent - steps) = some coefficient ∧
      stretch.coarsest grids exponent = ⟨coefficient, exponent - steps⟩ := by
  induction grids generalizing finer exponent with
  | zero => omega
  | succ grids ih =>
      cases found : stretch.onGrid? exponent with
      | some coefficient =>
          exact ⟨0, coefficient, Nat.zero_le _, by simpa using found, by simp [coarsest, found]⟩
      | none =>
          cases finer with
          | zero => simp [found] at hit
          | succ finer =>
              have hit : (stretch.onGrid? (exponent - 1 - finer)).isSome = true := by
                rwa [show exponent - 1 - finer = exponent - (finer + 1 : Nat) by omega]
              obtain ⟨steps, coefficient, few, chosen, result⟩ := ih (by omega) hit
              refine ⟨steps + 1, coefficient, by omega, ?_, ?_⟩
              · rw [← chosen]
                congr 1
                omega
              · rw [coarsest, found]
                simp only [result]
                congr 1
                omega

end Neighbourhood

/-- The decimal places of a power of two, counted from those of the least grid. -/
def places (power : Nat) : Nat :=
  (power * 30103 + 69378) / 100000

/-- The powers of ten at these places follow the powers of two. As `log₁₀ 2` is just below
`0.30103`, this is a matter of finitely many exponents. -/
theorem places_bounds {power : Nat} (bounded : power < 2098) :
    10 ^ places power <<< 1128 ≤ 1 <<< power * 10 ^ 345 ∧
      16 <<< power * 10 ^ 345 ≤ (10 ^ 25 * 10 ^ places power) <<< 1076 := by
  have checked : ((List.range 2098).all fun power =>
      Nat.ble (10 ^ places power <<< 1128) (1 <<< power * 10 ^ 345) &&
        Nat.ble (16 <<< power * 10 ^ 345) ((10 ^ 25 * 10 ^ places power) <<< 1076)) = true := by
    decide +kernel
  have found := List.all_eq_true.mp checked power (List.mem_range.mpr bounded)
  rw [Bool.and_eq_true] at found
  exact ⟨Nat.le_of_ble_eq_true found.1, Nat.le_of_ble_eq_true found.2⟩

/-- The power of two at the first bit of a finite double, counted from the least step. -/
def topPower (x : Binary64) : Nat :=
  x.significand.log2 + x.scale

/-- Every finite double has its first bit at one of finitely many places. -/
theorem topPower_lt {x : Binary64} (finite : x.isFinite = true) (nonzero : x.isZero = false) :
    x.topPower < 2098 := by
  have bits : x.significand.log2 < 53 := by
    rw [Nat.log2_lt (Nat.pos_iff_ne_zero.mp (significand_pos nonzero))]
    exact significand_lt x
  have := scale_le finite
  unfold topPower
  omega

/-- The first grid that is tried, in places. -/
theorem startExponent_eq (x : Binary64) : x.startExponent = places x.topPower - 322 := by
  unfold startExponent places topPower
  omega

/-- The neighbourhood of a double ends below the fourth power of two after its first bit. -/
theorem neighbourhood_high_le (x : Binary64) :
    x.neighbourhood.high ≤ 16 <<< x.topPower := by
  have top : x.significand < 2 ^ (x.significand.log2 + 1) := Nat.lt_log2_self
  rw [pow_succ] at top
  simp only [neighbourhood, Nat.shiftLeft_eq, topPower, pow_add, ← Nat.mul_assoc]
  exact Nat.mul_le_mul_right _ (by omega)

/-- The last grid that is tried is fine enough for the neighbourhood of any double. -/
theorem onGrid?_isSome {x : Binary64} (finite : x.isFinite = true) (nonzero : x.isZero = false) :
    (x.neighbourhood.onGrid? (places x.topPower - 345)).isSome = true := by
  have fine := (places_bounds (topPower_lt finite nonzero)).1
  have bits : x.significand.log2 < 53 := by
    rw [Nat.log2_lt (Nat.pos_iff_ne_zero.mp (significand_pos nonzero))]
    exact significand_lt x
  have positive := significand_pos nonzero
  obtain ⟨exponent, isExponent⟩ : ∃ exponent : Int, exponent = places x.topPower - 345 := ⟨_, rfl⟩
  rw [← isExponent]
  have powers : 10 ^ exponent.toNat * 10 ^ 345 =
      10 ^ places x.topPower * 10 ^ (-exponent).toNat := by
    rw [← pow_add, ← pow_add,
      show exponent.toNat + 345 = places x.topPower + (-exponent).toNat by omega]
  have top : 1 <<< x.topPower ≤ 1 <<< x.scale * 2 ^ 52 := by
    rw [Nat.shiftLeft_eq, Nat.shiftLeft_eq, Nat.one_mul, Nat.one_mul, ← pow_add]
    exact Nat.pow_le_pow_right (by decide) (by unfold topPower; omega)
  have tenth : 0 < 10 ^ 345 := pow_pos (by decide : 0 < 10) 345
  have grid : 10 ^ exponent.toNat <<< 1076 ≤ 1 <<< x.scale * 10 ^ (-exponent).toNat := by
    refine Nat.le_of_mul_le_mul_right ?_ (Nat.mul_pos (Nat.two_pow_pos 52) tenth)
    calc 10 ^ exponent.toNat <<< 1076 * (2 ^ 52 * 10 ^ 345)
        = (10 ^ exponent.toNat * 10 ^ 345) <<< 1076 * 2 ^ 52 := by
          rw [shiftLeft_mul, shiftLeft_mul, Nat.mul_assoc, Nat.mul_comm (2 ^ 52)]
      _ = (10 ^ places x.topPower * 10 ^ (-exponent).toNat) <<< 1128 := by
          rw [powers, ← Nat.shiftLeft_eq, ← Nat.shiftLeft_add]
      _ = 10 ^ places x.topPower <<< 1128 * 10 ^ (-exponent).toNat := (shiftLeft_mul _ _ _).symm
      _ ≤ 1 <<< x.topPower * 10 ^ 345 * 10 ^ (-exponent).toNat := Nat.mul_le_mul_right _ fine
      _ ≤ 1 <<< x.scale * 2 ^ 52 * 10 ^ 345 * 10 ^ (-exponent).toNat :=
          Nat.mul_le_mul_right _ (Nat.mul_le_mul_right _ top)
      _ = 1 <<< x.scale * 10 ^ (-exponent).toNat * (2 ^ 52 * 10 ^ 345) := by ring
  refine Neighbourhood.nearest?_isSome ?_ ?_ ?_
  · rw [Nat.pow_eq, Nat.shiftLeft_eq]
    positivity
  · simp only [Neighbourhood.refine, neighbourhood, Nat.pow_eq]
    refine Nat.le_trans (Nat.add_le_add_left grid _) ?_
    rw [← Nat.add_mul]
    refine Nat.mul_le_mul_right _ ?_
    rw [Nat.shiftLeft_eq, Nat.shiftLeft_eq, Nat.shiftLeft_eq, ← Nat.add_mul]
    refine Nat.mul_le_mul_right _ ?_
    split <;> omega
  · simp only [Neighbourhood.refine, neighbourhood, Nat.pow_eq, Nat.shiftLeft_eq]
    refine Nat.mul_lt_mul_of_pos_right (Nat.mul_lt_mul_of_pos_right (by omega) ?_) ?_
    · positivity
    · positivity

/-- The decimal that a finite double other than zero is written as names the double, and it has
at most twenty-six digits. -/
theorem shortest_names {x : Binary64} (finite : x.isFinite = true) (nonzero : x.isZero = false) :
    x.Names x.shortest.coefficient x.shortest.exponent ∧ x.shortest.coefficient < 10 ^ 26 := by
  have coarse := (places_bounds (topPower_lt finite nonzero)).2
  have last : x.startExponent - (23 : Nat) = places x.topPower - 345 := by
    rw [startExponent_eq]
    omega
  have hit : (x.neighbourhood.onGrid? (x.startExponent - (23 : Nat))).isSome = true := by
    rw [last]
    exact onGrid?_isSome finite nonzero
  obtain ⟨steps, coefficient, few, chosen, result⟩ :=
    Neighbourhood.coarsest_eq (by decide : 23 < 24) hit
  obtain ⟨exponent, isExponent⟩ : ∃ exponent, exponent = x.startExponent - (steps : Nat) :=
    ⟨_, rfl⟩
  have written : x.shortest = ⟨coefficient, exponent⟩ := by rw [shortest, result, isExponent]
  have names : x.Names coefficient exponent := by
    have inside := Neighbourhood.contains_of_nearest? chosen
    rwa [← isExponent, Nat.pow_eq, Nat.pow_eq, Nat.mul_comm, shiftLeft_mul, Nat.mul_comm] at inside
  rw [written]
  refine ⟨names, ?_⟩
  have powers : 10 ^ places x.topPower * 10 ^ (-exponent).toNat ≤
      10 ^ exponent.toNat * 10 ^ 345 := by
    rw [← pow_add, ← pow_add]
    exact Nat.pow_le_pow_right (by decide) (by omega)
  have unit : 0 < 10 ^ exponent.toNat * 10 ^ 345 :=
    Nat.mul_pos (Nat.pow_pos (by decide)) (pow_pos (by decide : 0 < 10) 345)
  have bounded : coefficient * (10 ^ exponent.toNat * 10 ^ 345) ≤
      10 ^ 25 * (10 ^ exponent.toNat * 10 ^ 345) := by
    rw [← shiftLeft_le_iff 1076]
    calc (coefficient * (10 ^ exponent.toNat * 10 ^ 345)) <<< 1076
        = (coefficient * 10 ^ exponent.toNat) <<< 1076 * 10 ^ 345 := by
          rw [shiftLeft_mul, Nat.mul_assoc]
      _ ≤ x.neighbourhood.high * 10 ^ (-exponent).toNat * 10 ^ 345 :=
          Nat.mul_le_mul_right _ names.bounds.2
      _ ≤ 16 <<< x.topPower * 10 ^ (-exponent).toNat * 10 ^ 345 :=
          Nat.mul_le_mul_right _ (Nat.mul_le_mul_right _ (neighbourhood_high_le x))
      _ = 16 <<< x.topPower * 10 ^ 345 * 10 ^ (-exponent).toNat := Nat.mul_right_comm _ _ _
      _ ≤ (10 ^ 25 * 10 ^ places x.topPower) <<< 1076 * 10 ^ (-exponent).toNat :=
          Nat.mul_le_mul_right _ coarse
      _ = (10 ^ 25 * (10 ^ places x.topPower * 10 ^ (-exponent).toNat)) <<< 1076 := by
          rw [shiftLeft_mul, Nat.mul_assoc]
      _ ≤ (10 ^ 25 * (10 ^ exponent.toNat * 10 ^ 345)) <<< 1076 :=
          (shiftLeft_le_iff 1076).mpr (Nat.mul_le_mul_left _ powers)
  calc coefficient ≤ 10 ^ 25 := Nat.le_of_mul_le_mul_right bounded unit
    _ < 10 ^ 26 := by decide

end TableStore.Binary64
