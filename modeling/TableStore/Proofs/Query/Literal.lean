/-
# Literals and keys

An index answers a literal with the rows under its key, so the equality of keys has to be the
equality that a literal tests. It is, over all values: what has no key are the arrays and the
objects, two scalars share a key exactly when the literal of one accepts the other, and a key is
written as a value that the literal of every value with this key accepts.
-/

import TableStore.Proofs.Index.Key
import TableStore.Query.Predicate

namespace TableStore

namespace IndexKey

/-- Only arrays and objects have no key. -/
theorem ofJson?_eq_none_iff (value : Json) :
    ofJson? value = none ↔
      (∃ items, value = .array items) ∨ ∃ members, value = .object members := by
  cases value <;> simp [ofJson?]

/-- The value that a key is written as equals every value with this key. -/
theorem same_of_ofJson? {value : Json} {key : IndexKey} (found : ofJson? value = some key) :
    key.toJson.same value = true := by
  have own : ofJson? key.toJson = some key := canonical_of_ofJson? found
  have scalar : key.toJson.isScalar = true := by rw [← isSome_ofJson?, own]; rfl
  exact (ofJson?_eq_iff scalar value).mp (own.trans found.symm)

/-- Numbers share a key exactly when they are equal. -/
theorem ofJson?_number_eq_iff (x y : Number) :
    ofJson? (.number x) = ofJson? (.number y) ↔ x.same y = true :=
  ofJson?_eq_iff rfl (.number y)

/-- Keys are equal exactly where values are. Values without a key are the arrays and the objects.
A scalar shares its key with a value exactly when the literal of the value accepts it, and a key
is written as a value that is equal to every value with this key. So an integer never shares its
key with a float, different integers of a word have different keys, both zeros have one, and other
finite doubles share theirs with no other. -/
theorem ofJson?_reflects_equality :
    (∀ value, ofJson? value = none ↔
      (∃ items, value = .array items) ∨ ∃ members, value = .object members) ∧
    (∀ x y : Json, x.isScalar = true →
      (ofJson? x = ofJson? y ↔ (Predicate.literal y).accepts x = true)) ∧
    (∀ value key, ofJson? value = some key →
      (Predicate.literal value).accepts key.toJson = true) ∧
    (∀ value fits double finite,
      ofJson? (.number (.integer value fits)) ≠ ofJson? (.number (.float double finite))) ∧
    (∀ x xFits y yFits,
      ofJson? (.number (.integer x xFits)) = ofJson? (.number (.integer y yFits)) ↔ x = y) ∧
    ofJson? (.number (.float ⟨0⟩ rfl)) = ofJson? (.number (.float ⟨0x8000000000000000⟩ rfl)) ∧
    ∀ x xFinite y yFinite,
      ofJson? (.number (.float x xFinite)) = ofJson? (.number (.float y yFinite)) ↔
        x = y ∨ x.isZero = true ∧ y.isZero = true := by
  refine ⟨ofJson?_eq_none_iff, fun x y scalar => ofJson?_eq_iff scalar y,
    fun value key found => same_of_ofJson? found, ?_, ?_, rfl, ?_⟩
  · intro value fits double finite shared
    cases (ofJson?_number_eq_iff _ _).mp shared
  · intro x xFits y yFits
    rw [ofJson?_number_eq_iff, Number.same, beq_iff_eq]
  · intro x xFinite y yFinite
    rw [ofJson?_number_eq_iff, Number.same, Binary64.same_iff xFinite yFinite]

/-- The literal of zero accepts negative zero, with which it shares its key, and accepts what this
key is written as. -/
theorem ofJson?_reflects_equality_zero :
    (ofJson? (.number (.float ⟨0x8000000000000000⟩ rfl)) = ofJson? (.number (.float ⟨0⟩ rfl)) ↔
      (Predicate.literal (.number (.float ⟨0⟩ rfl))).accepts
        (.number (.float ⟨0x8000000000000000⟩ rfl)) = true) ∧
    (Predicate.literal (.number (.float ⟨0x8000000000000000⟩ rfl))).accepts
      (ofBinary64 ⟨0⟩).toJson = true :=
  ⟨ofJson?_reflects_equality.2.1 _ _ rfl, ofJson?_reflects_equality.2.2.1 _ _ rfl⟩

end IndexKey

end TableStore
