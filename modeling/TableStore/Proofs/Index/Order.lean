/-
# The order of keys

Keys of different classes are in the order of their classes. Within the numbers the order of keys is
the order of what they stand for: integers in the order of integers, also across the boundary
between the two classes of them, and doubles in the order of doubles, infinities and subnormal ones
included.
-/

import TableStore.Proofs.Index.Key

namespace TableStore.IndexKey

variable {x y : Binary64}

/-- A key is less than another by its class, under one class by its number, and under one number by
its text. -/
theorem compare_eq_lt_iff (first second : IndexKey) :
    compare first second = .lt ↔
      first.classRank < second.classRank ∨ first.classRank = second.classRank ∧
        (first.quantity < second.quantity ∨ first.quantity = second.quantity ∧
          compare first.text second.text = .lt) := by
  rw [show compare first second =
      (compare first.classRank second.classRank).then
        ((compare first.quantity second.quantity).then (compare first.text second.text)) from rfl,
    Ordering.then_eq_lt, Ordering.then_eq_lt, Nat.compare_eq_lt, Int.compare_eq_lt,
    Std.compare_eq_iff_eq, Std.compare_eq_iff_eq]

/-- Keys without text in one class are in the order of their numbers. -/
theorem compare_eq_lt_iff_quantity {first second : IndexKey}
    (rank : first.classRank = second.classRank) (text : first.text = second.text) :
    compare first second = .lt ↔ first.quantity < second.quantity := by
  have noText : ¬compare first.text second.text = .lt := by
    rw [text, Std.compare_self]
    exact nofun
  rw [compare_eq_lt_iff]
  simp [rank, noText]

/-- The keys of integers are in the order of the integers. -/
theorem compare_ofNumber_integer_eq_lt_iff {m n : Int} (fitsM : FitsWord m) (fitsN : FitsWord n) :
    compare (ofNumber (.integer m fitsM)) (ofNumber (.integer n fitsN)) = .lt ↔ m < n := by
  rw [ofNumber, ofNumber]
  by_cases smallM : m < 0x8000000000000000
  · by_cases smallN : n < 0x8000000000000000
    · rw [if_pos smallM, if_pos smallN, compare_eq_lt_iff_quantity (by rfl) (by rfl), quantity,
        quantity, toInt_ofInt fitsM smallM, toInt_ofInt fitsN smallN]
    · rw [if_pos smallM, if_neg smallN, compare_eq_lt_iff]
      simp only [classRank]
      omega
  · by_cases smallN : n < 0x8000000000000000
    · rw [if_neg smallM, if_pos smallN, compare_eq_lt_iff]
      simp only [classRank]
      omega
    · rw [if_neg smallM, if_neg smallN, compare_eq_lt_iff_quantity (by rfl) (by rfl), quantity,
        quantity, toNat_ofNat_toNat fitsM smallM, toNat_ofNat_toNat fitsN smallN]

/-- Flipping the sign bit of a pattern without one lifts it above all patterns without one. -/
theorem toNat_xor_signBit {word : UInt64} (low : word.toNat < Binary64.signBit) :
    (word ^^^ 0x8000000000000000).toNat = Binary64.signBit + word.toNat := by
  have below := @Nat.xor_mod_two_pow word.toNat Binary64.signBit 63
  have above := @Nat.xor_div_two_pow word.toNat Binary64.signBit 63
  rw [show (2 : Nat) ^ 63 = Binary64.signBit from rfl] at below above
  rw [Nat.mod_self, Nat.mod_eq_of_lt low, Nat.xor_zero] at below
  rw [Nat.div_eq_of_lt low, Nat.div_self (by decide), Nat.zero_xor] at above
  calc (word ^^^ 0x8000000000000000).toNat
      = word.toNat ^^^ Binary64.signBit := UInt64.toNat_xor ..
    _ = Binary64.signBit * 1 + word.toNat := by
        rw [← Nat.div_add_mod (word.toNat ^^^ Binary64.signBit) Binary64.signBit, above, below]
    _ = Binary64.signBit + word.toNat := by rw [Nat.mul_one]

/-- The rank of a negative double falls as its magnitude grows, and that of another one rises. -/
theorem toNat_rankOf (x : Binary64) :
    (rankOf x).toNat =
      if x.isNegative then Binary64.signBit - 1 - x.magnitude
      else Binary64.signBit + x.magnitude := by
  have pattern := x.toNat_bits
  have room : UInt64.size = 2 * Binary64.signBit := rfl
  cases sign : x.isNegative with
  | true =>
      rw [sign] at pattern
      rw [rankOf, if_pos sign, UInt64.toNat_not]
      simp only [if_true] at pattern ⊢
      omega
  | false =>
      rw [sign] at pattern
      have low : x.bits.toNat < Binary64.signBit := by
        simpa [Binary64.isNegative] using sign
      rw [rankOf, if_neg (by simp [sign]), toNat_xor_signBit low]
      simpa using pattern

/-- The rank of a double other than the negative zero is less than another rank exactly when its
signed magnitude is less. -/
theorem rankOf_lt_iff (plain : x.isNegative = true → 0 < x.magnitude) :
    (rankOf x).toNat < (rankOf y).toNat ↔ x.signedMagnitude < y.signedMagnitude := by
  have xBounded : x.magnitude < Binary64.signBit := Nat.mod_lt _ (by decide)
  have yBounded : y.magnitude < Binary64.signBit := Nat.mod_lt _ (by decide)
  rw [toNat_rankOf, toNat_rankOf, Binary64.signedMagnitude, Binary64.signedMagnitude]
  cases xSign : x.isNegative <;> cases ySign : y.isNegative <;>
    simp only [Bool.false_eq_true, if_false, if_true]
  case true.false =>
    have positive := plain xSign
    omega
  all_goals omega

/-- The double that a key holds in place of a double: the positive zero for both zeros. -/
theorem plain_zero (x : Binary64) :
    let held : Binary64 := if x.isZero then ⟨0⟩ else x
    (held.isNegative = true → 0 < held.magnitude) ∧ held.signedMagnitude = x.signedMagnitude := by
  cases zero : x.isZero with
  | true =>
      have none : x.magnitude = 0 := of_decide_eq_true zero
      refine ⟨nofun, ?_⟩
      simp only [if_true, Binary64.signedMagnitude, none]
      split <;> split <;> rfl
  | false =>
      have some : x.magnitude ≠ 0 := of_decide_eq_false zero
      exact ⟨fun _ => Nat.pos_of_ne_zero some, rfl⟩

/-- The keys of doubles that are numbers are in the order of the doubles. -/
theorem compare_ofBinary64_eq_lt_iff (xNumber : x.isNaN = false) (yNumber : y.isNaN = false) :
    compare (ofBinary64 x) (ofBinary64 y) = .lt ↔ x.less y = true := by
  obtain ⟨plain, xSame⟩ := plain_zero x
  have ySame := (plain_zero y).2
  rw [ofBinary64, ofBinary64, compare_eq_lt_iff_quantity (by rfl) (by rfl), quantity, quantity,
    Int.ofNat_lt, rankOf_lt_iff plain, xSame, ySame, Binary64.less, xNumber, yNumber]
  simp

/-- The value of the key of a finite double is this double, or zero if it is one of the zeros. -/
theorem toJson_ofBinary64 (finite : x.isFinite = true) :
    ∃ (y : Binary64) (alsoFinite : y.isFinite = true),
      (ofBinary64 x).toJson = .number (.float y alsoFinite) ∧
        (y = x ∨ x.isZero = true ∧ y.isZero = true) := by
  have value : ∀ (y : Binary64) (alsoFinite : y.isFinite = true),
      (float (rankOf y)).toJson = .number (.float y alsoFinite) := by
    intro y alsoFinite
    rw [toJson, ofRank_rankOf, Json.ofBinary64, Number.ofBinary64?, dif_pos alsoFinite]
  cases zero : x.isZero with
  | true => exact ⟨⟨0⟩, rfl, by rw [ofBinary64, zero]; exact value ⟨0⟩ rfl, .inr ⟨rfl, rfl⟩⟩
  | false => exact ⟨x, finite, by rw [ofBinary64, zero]; exact value x finite, .inl rfl⟩

/-- Keys of different classes are in the order null, truth values, integers of a signed word,
greater integers, doubles, strings. -/
theorem pairwise_classes (truth : Bool) (i : Int64) (u rank : UInt64) (s : String) :
    [null, .bool truth, .int i, .uint u, .float rank, .string s].Pairwise fun lower upper =>
      compare lower upper = .lt := by
  have ranks : [null, .bool truth, .int i, .uint u, .float rank, .string s].map classRank =
      List.range 6 := rfl
  have ascending := List.pairwise_map.mp (ranks ▸ List.pairwise_lt_range)
  exact ascending.imp fun {lower upper} below => (compare_eq_lt_iff lower upper).mpr (.inl below)

/-- Integers and doubles are ordered by number, no finite double is lost in its key except for the
sign of zero, and keys of different classes are in the order of their classes. -/
theorem order_is_numeric :
    (∀ (m n : Int) (fitsM : FitsWord m) (fitsN : FitsWord n),
      compare (ofNumber (.integer m fitsM)) (ofNumber (.integer n fitsN)) = .lt ↔ m < n) ∧
    (∀ x y : Binary64, x.isNaN = false → y.isNaN = false →
      (compare (ofBinary64 x) (ofBinary64 y) = .lt ↔ x.less y = true)) ∧
    (∀ x y : Binary64, x.isFinite = true → y.isFinite = true →
      (compare (ofBinary64 x) (ofBinary64 y) = .lt ↔ x.signedSteps < y.signedSteps)) ∧
    (∀ x : Binary64, x.isFinite = true →
      ∃ (y : Binary64) (alsoFinite : y.isFinite = true),
        (ofBinary64 x).toJson = .number (.float y alsoFinite) ∧
          (y = x ∨ x.isZero = true ∧ y.isZero = true)) ∧
    ∀ (truth : Bool) (i : Int64) (u rank : UInt64) (s : String),
      [null, .bool truth, .int i, .uint u, .float rank, .string s].Pairwise fun lower upper =>
        compare lower upper = .lt := by
  refine ⟨fun _ _ => compare_ofNumber_integer_eq_lt_iff, fun _ _ => compare_ofBinary64_eq_lt_iff,
    fun x y xFinite yFinite => ?_, fun _ => toJson_ofBinary64, pairwise_classes⟩
  rw [compare_ofBinary64_eq_lt_iff (Binary64.isNaN_of_isFinite xFinite)
    (Binary64.isNaN_of_isFinite yFinite), Binary64.less_iff_signedSteps_lt xFinite yFinite]

/-- Integers across the boundary of their two classes, doubles from the negative infinity over the
subnormal ones to zero, and one key of each class. -/
theorem order_is_numeric_atBoundaries :
    compare (ofNumber (.integer 0x7FFFFFFFFFFFFFFF ⟨by decide, by decide⟩))
      (ofNumber (.integer 0x8000000000000000 ⟨by decide, by decide⟩)) = .lt ∧
    compare (ofBinary64 ⟨0xFFF0000000000000⟩) (ofBinary64 ⟨0x8000000000000001⟩) = .lt ∧
    ¬compare (ofBinary64 ⟨0x8000000000000000⟩) (ofBinary64 ⟨0⟩) = .lt ∧
    compare (ofBinary64 ⟨0x8000000000000001⟩) (ofBinary64 ⟨0x3FE0000000000000⟩) = .lt ∧
    (ofBinary64 ⟨0x8000000000000001⟩).toJson = .number (.float ⟨0x8000000000000001⟩ rfl) ∧
    [null, .bool true, ofNumber (.integer 0 ⟨by decide, by decide⟩), .uint 0xFFFFFFFFFFFFFFFF,
      ofBinary64 ⟨0xFFF0000000000000⟩, .string ""].Pairwise fun lower upper =>
        compare lower upper = .lt := by
  obtain ⟨integers, doubles, finiteDoubles, values, classes⟩ := order_is_numeric
  refine ⟨(integers _ _ _ _).mpr (by decide), (doubles _ _ rfl rfl).mpr (by decide),
    fun less => absurd ((doubles _ _ rfl rfl).mp less) (by decide),
    (finiteDoubles _ _ rfl rfl).mpr (by decide), ?_, classes true 0 _ _ ""⟩
  obtain ⟨y, finite, value, rfl | ⟨zero, -⟩⟩ := values ⟨0x8000000000000001⟩ rfl
  · exact value
  · exact absurd zero (by decide)

end TableStore.IndexKey
