/-
# Keys stand for values

Two scalars have the same key exactly when they are equal as values, so a lookup by key finds what
a comparison of values finds. The value that a key is written as has this key again, provided the
key belongs to some value at all.
-/

import TableStore.Index.Key
import TableStore.Proofs.Binary64.Order

namespace TableStore

namespace IndexKey

/-- A rank is at or above the middle when its first bit is set. -/
theorem middle_le_iff (rank : UInt64) :
    0x8000000000000000 ≤ rank ↔ rank.toBitVec.msb = true := by
  rw [BitVec.msb_eq_decide, decide_eq_true_eq, UInt64.le_iff_toNat_le]
  rfl

/-- The float of the rank of a double is this double. -/
theorem ofRank_rankOf (x : Binary64) : ofRank (rankOf x) = x := by
  unfold ofRank rankOf
  cases sign : x.isNegative with
  | true =>
      have low : ¬(0x8000000000000000 ≤ ~~~x.bits) := by
        rw [middle_le_iff, UInt64.toBitVec_not, BitVec.msb_not]
        simp [← x.isNegative_eq_msb, sign]
      simp only [if_true, if_neg low]
      exact Binary64.eq_of_bits (UInt64.not_not)
  | false =>
      have high : 0x8000000000000000 ≤ x.bits ^^^ 0x8000000000000000 := by
        rw [middle_le_iff, UInt64.toBitVec_xor, BitVec.msb_xor, ← x.isNegative_eq_msb, sign]
        rfl
      simp only [Bool.false_eq_true, if_false, if_pos high]
      exact Binary64.eq_of_bits (by
        rw [UInt64.xor_assoc, UInt64.xor_self, UInt64.xor_zero])

/-- Doubles with the same rank are the same. -/
theorem rankOf_injective {x y : Binary64} (same : rankOf x = rankOf y) : x = y := by
  rw [← ofRank_rankOf x, same, ofRank_rankOf]

/-- Finite doubles have the same key exactly when they are numerically equal. -/
theorem ofBinary64_eq_iff {x y : Binary64} (xFinite : x.isFinite = true)
    (yFinite : y.isFinite = true) : ofBinary64 x = ofBinary64 y ↔ x.same y = true := by
  have keys : ofBinary64 x = ofBinary64 y ↔
      (if x.isZero then ⟨0⟩ else x) = (if y.isZero then ⟨0⟩ else y : Binary64) :=
    ⟨fun same => rankOf_injective (float.inj same), fun same => congrArg (float ∘ rankOf) same⟩
  rw [keys, Binary64.same_iff xFinite yFinite]
  by_cases xZero : x.isZero = true
  · by_cases yZero : y.isZero = true
    · simp [xZero, yZero]
    · have apart : (⟨0⟩ : Binary64) ≠ y := by
        rintro rfl
        exact yZero rfl
      have different : x ≠ y := by
        rintro rfl
        exact yZero xZero
      simp [xZero, yZero, apart, different]
  · by_cases yZero : y.isZero = true
    · have apart : x ≠ (⟨0⟩ : Binary64) := by
        rintro rfl
        exact xZero rfl
      have different : x ≠ y := by
        rintro rfl
        exact xZero yZero
      simp [xZero, yZero, apart, different]
    · simp [xZero, yZero]

/-- An integer below the middle of the words is the number of its key. -/
theorem toInt_ofInt {value : Int} (fits : FitsWord value) (small : value < 0x8000000000000000) :
    (Int64.ofInt value).toInt = value :=
  Int64.toInt_ofInt_of_le fits.1 small

/-- An integer above every signed word is the number of its key. -/
theorem toNat_ofNat_toNat {value : Int} (fits : FitsWord value)
    (large : ¬value < 0x8000000000000000) : ((UInt64.ofNat value.toNat).toNat : Int) = value := by
  have high := fits.2
  rw [UInt64.toNat_ofNat_of_lt' (by simp only [UInt64.size]; omega)]
  omega

/-- Numbers have the same key exactly when they are equal as values. -/
theorem ofNumber_eq_iff (x y : Number) : ofNumber x = ofNumber y ↔ x.same y = true := by
  cases x with
  | integer m fitsM =>
      cases y with
      | integer n fitsN =>
          simp only [ofNumber, Number.same, beq_iff_eq]
          by_cases smallM : m < 0x8000000000000000
          · by_cases smallN : n < 0x8000000000000000
            · rw [if_pos smallM, if_pos smallN, int.injEq, ← Int64.toInt_inj,
                toInt_ofInt fitsM smallM, toInt_ofInt fitsN smallN]
            · rw [if_pos smallM, if_neg smallN]
              exact ⟨nofun, fun same => absurd (same ▸ smallM) smallN⟩
          · by_cases smallN : n < 0x8000000000000000
            · rw [if_neg smallM, if_pos smallN]
              exact ⟨nofun, fun same => absurd (same ▸ smallN) smallM⟩
            · have numberM := toNat_ofNat_toNat fitsM smallM
              have numberN := toNat_ofNat_toNat fitsN smallN
              rw [if_neg smallM, if_neg smallN, uint.injEq, ← UInt64.toNat_inj]
              omega
      | float y finite =>
          simp only [ofNumber, Number.same, Bool.false_eq_true, iff_false]
          split <;> exact nofun
  | float x finite =>
      cases y with
      | integer n fits =>
          simp only [ofNumber, Number.same, Bool.false_eq_true, iff_false]
          split <;> exact nofun
      | float y finite' => exact ofBinary64_eq_iff finite finite'

/-- The keys of numbers stand between those of truth values and those of strings. -/
theorem classRank_ofNumber (x : Number) :
    2 ≤ (ofNumber x).classRank ∧ (ofNumber x).classRank ≤ 4 := by
  cases x with
  | integer value fits =>
      rw [ofNumber]
      split <;> simp [classRank]
  | float value finite => simp [ofNumber, ofBinary64, classRank]

/-- A number does not have the key of a value of another class. -/
theorem ofNumber_ne (x : Number) {key : IndexKey}
    (other : key.classRank < 2 ∨ 4 < key.classRank) : ofNumber x ≠ key := by
  rintro rfl
  have between := classRank_ofNumber x
  omega

/-- A value has a key exactly when it is a scalar. -/
theorem isSome_ofJson? (value : Json) : (ofJson? value).isSome = value.isScalar := by
  cases value <;> rfl

/-- A scalar has a key. -/
theorem exists_ofJson?_eq {value : Json} (scalar : value.isScalar = true) :
    ∃ key, ofJson? value = some key :=
  Option.isSome_iff_exists.mp ((isSome_ofJson? value).trans scalar)

/-- A scalar and a value have the same key exactly when they are equal as values. -/
theorem ofJson?_eq_iff {x : Json} (scalar : x.isScalar = true) (y : Json) :
    ofJson? x = ofJson? y ↔ x.same y = true := by
  cases x with
  | array => simp [Json.isScalar] at scalar
  | object => simp [Json.isScalar] at scalar
  | number x =>
      cases y with
      | number y => simpa [ofJson?, Json.same] using ofNumber_eq_iff x y
      | _ => simp [ofJson?, Json.same, ofNumber_ne, classRank]
  | _ =>
      cases y with
      | number y => simp [ofJson?, Json.same, (ofNumber_ne y _).symm, classRank]
      | _ => simp [ofJson?, Json.same]

/-- Whether a key is that of the value it is written as. -/
def Canonical (key : IndexKey) : Prop :=
  ofJson? key.toJson = some key

/-- The key of a finite double is canonical: it is the key of a double that is not negative
zero. -/
theorem canonical_ofBinary64 {x : Binary64} (finite : x.isFinite = true) :
    (ofBinary64 x).Canonical := by
  unfold ofBinary64
  generalize plain : (if x.isZero then (⟨0⟩ : Binary64) else x) = y
  have yFinite : y.isFinite = true := by
    rw [← plain]
    split
    · rfl
    · exact finite
  have yPlain : (if y.isZero then (⟨0⟩ : Binary64) else y) = y := by
    rw [← plain]
    split
    · rfl
    · rfl
  have value : (float (rankOf y)).toJson = .number (.float y yFinite) := by
    rw [toJson, ofRank_rankOf, Json.ofBinary64, Number.ofBinary64?, dif_pos yFinite]
  rw [Canonical, value, ofJson?, ofNumber, ofBinary64, yPlain]

/-- A key of some value is canonical. -/
theorem canonical_of_ofJson? {value : Json} {key : IndexKey} (found : ofJson? value = some key) :
    key.Canonical := by
  cases value with
  | null => cases found; rfl
  | bool => cases found; rfl
  | string => cases found; rfl
  | array => cases found
  | object => cases found
  | number number =>
      cases found
      cases number with
      | integer value fits =>
          by_cases small : value < 0x8000000000000000
          · have number := toInt_ofInt fits small
            simp [Canonical, ofNumber, small, toJson, ofJson?, Number.ofInt64, number]
          · have number := toNat_ofNat_toNat fits small
            rw [ofNumber, if_neg small]
            generalize UInt64.ofNat value.toNat = word at number ⊢
            rw [← number] at small
            rw [Canonical, toJson, ofJson?, Number.ofUInt64, ofNumber, if_neg small,
              Int.toNat_natCast, UInt64.ofNat_toNat]
      | float value finite => exact canonical_ofBinary64 finite

end IndexKey

end TableStore
