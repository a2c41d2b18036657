/-
# The one text of an identifier

The text of an identifier is made of decimal digits that count up to its number, at least four of
them, and starts with a zero only if there are no more than four. As many digits that count up to
the same number are the same digits, so these conditions leave one text for each identifier, and
none for a number beyond a word.
-/

import TableStore.Proofs.Json.Number
import TableStore.Proofs.Row.Id

namespace TableStore

/-- A digit is worth at most nine. -/
theorem worth_le_nine {c : Char} (digit : c.isDigit = true) : c.toNat - '0'.toNat ≤ 9 := by
  have range := Char.isDigit_iff_toNat.mp digit
  have zero : '0'.toNat = 48 := rfl
  have nine : '9'.toNat = 57 := rfl
  omega

/-- Digits count what the first of them is worth at its place, and what the others count. -/
theorem ofDigitChars_cons_zero (c : Char) (rest : List Char) :
    Nat.ofDigitChars 10 (c :: rest) 0 =
      10 ^ rest.length * (c.toNat - '0'.toNat) + Nat.ofDigitChars 10 rest 0 := by
  rw [Nat.ofDigitChars_cons, Nat.ofDigitChars_eq_ofDigitChars_zero, Nat.mul_zero, Nat.zero_add]

/-- Digits count less than a one with as many zeros. -/
theorem ofDigitChars_lt {digits : List Char} (all : AllDigits digits) :
    Nat.ofDigitChars 10 digits 0 < 10 ^ digits.length := by
  induction digits with
  | nil => decide
  | cons c rest ih =>
      obtain ⟨first, others⟩ := List.forall_mem_cons.mp all
      calc Nat.ofDigitChars 10 (c :: rest) 0
          = 10 ^ rest.length * (c.toNat - '0'.toNat) + Nat.ofDigitChars 10 rest 0 :=
            ofDigitChars_cons_zero c rest
        _ < 10 ^ rest.length * (c.toNat - '0'.toNat) + 10 ^ rest.length :=
            Nat.add_lt_add_left (ih others) _
        _ = 10 ^ rest.length * (c.toNat - '0'.toNat + 1) := (Nat.mul_succ _ _).symm
        _ ≤ 10 ^ rest.length * 10 := Nat.mul_le_mul_left _ (Nat.succ_le_succ (worth_le_nine first))
        _ = 10 ^ (c :: rest).length := (pow_succ 10 rest.length).symm

/-- Digits that do not start with a zero count no less than a one with as many zeros as there are
other digits. -/
theorem le_ofDigitChars {c : Char} (digit : c.isDigit = true) (nonzero : c ≠ '0')
    (rest : List Char) : 10 ^ rest.length ≤ Nat.ofDigitChars 10 (c :: rest) 0 := by
  have above : '0'.toNat ≤ c.toNat := (Char.isDigit_iff_toNat.mp digit).1
  have apart : c.toNat ≠ '0'.toNat := fun same => nonzero (Char.toNat_inj.mp same)
  have worth : 1 ≤ c.toNat - '0'.toNat := by omega
  rw [ofDigitChars_cons_zero]
  exact Nat.le_add_right_of_le (Nat.le_mul_of_pos_right _ worth)

/-- As many digits that count up to the same number are the same digits. -/
theorem eq_of_ofDigitChars_eq {first second : List Char} (all : AllDigits first)
    (alsoAll : AllDigits second) (length : first.length = second.length)
    (same : Nat.ofDigitChars 10 first 0 = Nat.ofDigitChars 10 second 0) : first = second := by
  induction first generalizing second with
  | nil => exact (List.length_eq_zero_iff.mp length.symm).symm
  | cons c rest ih =>
      cases second with
      | nil => cases length
      | cons d others =>
          obtain ⟨digit, digits⟩ := List.forall_mem_cons.mp all
          obtain ⟨alsoDigit, alsoDigits⟩ := List.forall_mem_cons.mp alsoAll
          have lengths : rest.length = others.length := Nat.succ_inj.mp length
          have small := ofDigitChars_lt digits
          have alsoSmall := ofDigitChars_lt alsoDigits
          have positive : 0 < 10 ^ others.length := Nat.pow_pos (by decide)
          rw [ofDigitChars_cons_zero, ofDigitChars_cons_zero, lengths] at same
          rw [lengths] at small
          -- what the first digit is worth is the quotient, what the others count the remainder
          have heads : c.toNat - '0'.toNat = d.toNat - '0'.toNat := by
            have quotients := congrArg (· / 10 ^ others.length) same
            simpa only [Nat.mul_add_div positive, Nat.div_eq_of_lt small,
              Nat.div_eq_of_lt alsoSmall, Nat.add_zero] using quotients
          rw [heads] at same
          have letters : c = d := by
            have above := (Char.isDigit_iff_toNat.mp digit).1
            have alsoAbove := (Char.isDigit_iff_toNat.mp alsoDigit).1
            exact Char.toNat_inj.mp (by omega)
          rw [letters, ih digits alsoDigits lengths (Nat.add_left_cancel same)]

namespace RowId

/-- Whether a text is the decimal of a number, padded with zeros to four digits. -/
structure Decimal (text : String) (number : Nat) : Prop where
  /-- There are only the digits from `0` to `9`, no sign and no digit of another script. -/
  digits : ∀ c ∈ text.toList, '0' ≤ c ∧ c ≤ '9'
  /-- No zero is missing. -/
  wide : 4 ≤ text.length
  /-- No zero is superfluous. -/
  plain : 4 < text.length → text.toList.head? ≠ some '0'
  value : Nat.ofDigitChars 10 text.toList 0 = number

/-- The digits of a decimal are digits. -/
theorem Decimal.allDigits {text : String} {number : Nat} (decimal : Decimal text number) :
    AllDigits text.toList := by
  intro c member
  exact Char.isDigit_iff_toNat.mpr (decimal.digits c member)

/-- The digits of an identifier are those of its number, or as many as every identifier has. -/
theorem length_digits (id : RowId) :
    id.digits.length = max width (Nat.toDigits 10 id.value.toNat).length := by
  rw [digits, List.length_append, List.length_replicate]
  omega

/-- An identifier is written as the decimal of its number. -/
theorem decimal_toText (id : RowId) : Decimal id.toText id.value.toNat := by
  have letters : id.toText.toList = id.digits := String.toList_ofList
  have length : id.toText.length = max width (Nat.toDigits 10 id.value.toNat).length := by
    rw [← String.length_toList, letters, length_digits]
  have least : width = 4 := rfl
  constructor
  · intro c member
    rw [letters] at member
    exact Char.isDigit_iff_toNat.mp (isDigit_of_mem_digits member)
  · omega
  · intro long
    have unpadded : width - (Nat.toDigits 10 id.value.toNat).length = 0 := by omega
    have large : 0 < id.value.toNat := by
      apply Nat.pos_of_ne_zero
      intro zero
      rw [length, zero] at long
      exact absurd long (by decide)
    rw [letters, digits, unpadded, List.replicate_zero, List.nil_append]
    exact head?_toDigits_ne large
  · rw [letters, ofDigitChars_digits]

/-- The decimal of a number has as many digits as the identifier with this number. -/
theorem Decimal.length_eq {text : String} {id : RowId} (decimal : Decimal text id.value.toNat) :
    text.toList.length = id.digits.length := by
  have wide := decimal.wide
  have plain := decimal.plain
  have value := decimal.value
  have all := decimal.allDigits
  rw [← String.length_toList] at wide plain
  rw [length_digits, ← value, show width = 4 from rfl]
  generalize text.toList = letters at *
  have below : (Nat.toDigits 10 (Nat.ofDigitChars 10 letters 0)).length ≤ letters.length :=
    (Nat.length_toDigits_le_iff (by decide) (by omega)).mpr (ofDigitChars_lt all)
  rcases Nat.eq_or_lt_of_le wide with four | more
  · omega
  · cases letters with
    | nil => cases more
    | cons c rest =>
        have nonzero : c ≠ '0' := fun same => plain more (congrArg some same)
        have above :
            ¬(Nat.toDigits 10 (Nat.ofDigitChars 10 (c :: rest) 0)).length ≤ rest.length := by
          rw [Nat.length_toDigits_le_iff (by decide) (by rw [List.length_cons] at more; omega)]
          exact Nat.not_lt.mpr (le_ofDigitChars (all c List.mem_cons_self) nonzero rest)
        rw [List.length_cons] at below more ⊢
        omega

/-- The decimal of the number of an identifier is the text of this identifier. -/
theorem Decimal.eq_toText {text : String} {id : RowId} (decimal : Decimal text id.value.toNat) :
    text = id.toText := by
  have same : text.toList = id.digits :=
    eq_of_ofDigitChars_eq decimal.allDigits (fun _ member => isDigit_of_mem_digits member)
      decimal.length_eq (decimal.value.trans (ofDigitChars_digits id).symm)
  rw [toText, ← same, String.ofList_toList]

/-- A text is read as an identifier exactly if it is the decimal of its number. -/
theorem ofText?_eq_some_iff_decimal {text : String} {id : RowId} :
    ofText? text = some id ↔ Decimal text id.value.toNat := by
  rw [ofText?_eq_some_iff]
  exact ⟨fun same => same ▸ decimal_toText id, Decimal.eq_toText⟩

/-- A text is read exactly if it is the decimal of a number of a word. -/
theorem isSome_ofText?_iff {text : String} :
    (ofText? text).isSome = true ↔ ∃ number < UInt64.size, Decimal text number := by
  rw [Option.isSome_iff_exists]
  constructor
  · intro read
    obtain ⟨id, found⟩ := read
    exact ⟨id.value.toNat, id.value.toNat_lt, ofText?_eq_some_iff_decimal.mp found⟩
  · intro named
    obtain ⟨number, word, decimal⟩ := named
    have value : (UInt64.ofNat number).toNat = number := UInt64.toNat_ofNat_of_lt' word
    exact ⟨⟨UInt64.ofNat number⟩, ofText?_eq_some_iff_decimal.mpr (value.symm ▸ decimal)⟩

end RowId

end TableStore
