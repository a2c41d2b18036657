/-
# Numbers survive being written

The text of a number is a numeral, and this numeral names the number again. For an integer that is
a matter of decimal digits; for a float the digits are those of a decimal that names it, and the
layout only moves the point and adds zeros.
-/

import Mathlib.Tactic.IntervalCases
import TableStore.Json.Number
import TableStore.Proofs.Binary64.Shortest

namespace TableStore

/-- Whether all characters are decimal digits. -/
def AllDigits (text : List Char) : Prop :=
  ∀ c ∈ text, c.isDigit = true

/-- The digits of a natural number are digits. -/
theorem allDigits_toDigits (n : Nat) : AllDigits (Nat.toDigits 10 n) :=
  fun _ member => Nat.isDigit_of_mem_toDigits (by decide) (by decide) member

/-- The digits of a positive number do not start with a zero. -/
theorem head?_toDigits_ne {n : Nat} (positive : 0 < n) :
    (Nat.toDigits 10 n).head? ≠ some '0' := by
  induction n using Nat.strongRecOn with
  | ind n ih =>
      by_cases small : n < 10
      · rw [Nat.toDigits_of_lt_base small]
        interval_cases n <;> decide
      · rw [Nat.toDigits_of_base_le (by decide) (by omega),
          List.head?_append,
          Option.or_of_isSome (by simp [Nat.toDigits_ne_nil])]
        exact ih (n / 10) (by omega) (by omega)

namespace Numeral

/-- Whether a numeral can be written as it is: it has digits before the point, none of them a
superfluous zero, and digits after it. -/
structure Proper (numeral : Numeral) : Prop where
  whole_ne_nil : numeral.whole ≠ []
  whole_digits : AllDigits numeral.whole
  whole_head : numeral.whole.head? = some '0' → numeral.whole = ['0']
  fraction_ne_nil : ∀ digits ∈ numeral.fraction, digits ≠ []
  fraction_digits : ∀ digits ∈ numeral.fraction, AllDigits digits

/-- The text of an exponent, sign first. -/
def exponentText (exponent : Int) : List Char :=
  (if exponent < 0 then '-' else '+') :: Nat.toDigits 10 exponent.natAbs

/-- The text of a numeral without its sign. -/
def unsignedText (numeral : Numeral) : List Char :=
  numeral.whole ++ ((numeral.fraction.map ('.' :: ·)).getD [] ++
    (numeral.exponent.map fun exponent => 'e' :: exponentText exponent).getD [])

/-- The text of a numeral. -/
def text (numeral : Numeral) : List Char :=
  if numeral.negative then '-' :: numeral.unsignedText else numeral.unsignedText

/-- Digits are read up to the first other character. -/
theorem digits?_append {digits rest : List Char} (nonempty : digits ≠ [])
    (allDigits : AllDigits digits) (stops : ∀ c ∈ rest.head?, c.isDigit = false) :
    digits? (digits ++ rest) = some (digits, rest) := by
  have taken : (digits ++ rest).takeWhile Char.isDigit = digits := by
    rw [List.takeWhile_append_of_pos allDigits]
    cases rest with
    | nil => simp
    | cons c rest => simp [stops c rfl]
  have dropped : (digits ++ rest).dropWhile Char.isDigit = rest := by
    rw [List.dropWhile_append_of_pos allDigits]
    cases rest with
    | nil => rfl
    | cons c rest => simp [stops c rfl]
  simp only [digits?, taken, dropped, List.isEmpty_iff, nonempty, if_false]

/-- The text of an exponent reads back. -/
theorem exponent?_exponentText (exponent : Int) :
    exponent? (exponentText exponent) = some exponent := by
  have digits : digits? (Nat.toDigits 10 exponent.natAbs) =
      some (Nat.toDigits 10 exponent.natAbs, []) := by
    simpa using @digits?_append (Nat.toDigits 10 exponent.natAbs) [] Nat.toDigits_ne_nil
      (allDigits_toDigits _) (by simp)
  by_cases negative : exponent < 0
  · have value : -(exponent.natAbs : Int) = exponent := by omega
    simp only [exponentText, negative, if_true, exponent?, digits, Nat.ofDigitChars_ten_toDigits,
      value]
  · have value : (exponent.natAbs : Int) = exponent := by omega
    simp only [exponentText, negative, if_false, exponent?, digits, Nat.ofDigitChars_ten_toDigits,
      Bool.false_eq_true, value]

/-- What may follow the digits of a numeral does not go on with them. -/
theorem isDigit_exponentTail (exponent : Option Int) :
    ∀ c ∈ ((exponent.map fun exponent => 'e' :: exponentText exponent).getD []).head?,
      c.isDigit = false := by
  cases exponent <;> simp

/-- What may follow the digits before the point does not go on with them. -/
theorem isDigit_fractionTail (fraction : Option (List Char)) (exponent : Option Int) :
    ∀ c ∈ ((fraction.map ('.' :: ·)).getD [] ++
        (exponent.map fun exponent => 'e' :: exponentText exponent).getD []).head?,
      c.isDigit = false := by
  cases fraction with
  | none => simpa using isDigit_exponentTail exponent
  | some digits => simp

/-- The text of a numeral reads back. -/
theorem read?_text {numeral : Numeral} (proper : numeral.Proper) :
    read? numeral.text = some numeral := by
  obtain ⟨negative, whole, fraction, exponent⟩ := numeral
  obtain ⟨nonempty, digits, head, fractionNonempty, fractionDigits⟩ := proper
  have unsigned : ∀ rest, whole ++ ((fraction.map ('.' :: ·)).getD [] ++
      (exponent.map fun exponent => 'e' :: exponentText exponent).getD []) ≠ '-' :: rest := by
    intro rest minus
    obtain ⟨c, others, rfl⟩ := List.exists_cons_of_ne_nil nonempty
    have digit := digits c List.mem_cons_self
    rw [(List.cons.inj minus).1] at digit
    exact absurd digit (by decide)
  have whole? := digits?_append nonempty digits (isDigit_fractionTail fraction exponent)
  have plain : ¬(whole.head? = some '0' ∧ whole ≠ ['0']) := fun zero => zero.2 (head zero.1)
  cases fraction with
  | none =>
      cases exponent with
      | none =>
          cases negative
          all_goals simp_all [read?, text, unsignedText]
      | some exponent =>
          cases negative
          all_goals simp_all [read?, text, unsignedText, exponent?_exponentText]
  | some fraction =>
      have fraction? := digits?_append (fractionNonempty fraction rfl) (fractionDigits fraction rfl)
        (isDigit_exponentTail exponent)
      cases exponent with
      | none =>
          cases negative
          all_goals simp_all [read?, text, unsignedText]
      | some exponent =>
          cases negative
          all_goals simp_all [read?, text, unsignedText, exponent?_exponentText]

/-- All digits of a numeral, without the point. -/
def allDigits (numeral : Numeral) : List Char :=
  numeral.whole ++ numeral.fraction.getD []

/-- The power of ten that the digits of a numeral count. -/
def lastPlace (numeral : Numeral) : Int :=
  numeral.exponent.getD 0 - (numeral.fraction.getD []).length

/-- Zeros in front of digits do not count. -/
theorem ofDigitChars_dropWhile_zero (digits : List Char) :
    Nat.ofDigitChars 10 (digits.dropWhile fun c => c = '0') 0 = Nat.ofDigitChars 10 digits 0 := by
  induction digits with
  | nil => rfl
  | cons c rest ih =>
      by_cases zero : c = '0'
      · rw [List.dropWhile_cons_of_pos (by simpa using zero), ih, zero, Nat.ofDigitChars_cons]
        rfl
      · rw [List.dropWhile_cons_of_neg (by simpa using zero)]

/-- A text is what is left without the zeros at its end, and these zeros. -/
theorem exists_trailing_zeros (digits : List Char) :
    ∃ zeros, digits =
      (digits.reverse.dropWhile fun c => c = '0').reverse ++ List.replicate zeros '0' := by
  refine ⟨(digits.reverse.takeWhile fun c => c = '0').length, ?_⟩
  have zeros : (digits.reverse.takeWhile fun c => c = '0') =
      List.replicate (digits.reverse.takeWhile fun c => c = '0').length '0' :=
    List.eq_replicate_of_mem fun c member => by
      simpa using List.all_eq_true.mp List.all_takeWhile c member
  have whole : digits = (digits.reverse.dropWhile fun c => c = '0').reverse ++
      (digits.reverse.takeWhile fun c => c = '0').reverse := by
    rw [← List.reverse_append, List.takeWhile_append_dropWhile, List.reverse_reverse]
  rw [← List.reverse_replicate, ← zeros]
  exact whole

/-- A numeral is read as the double that its digits name at their place. -/
theorem float?_eq {numeral : Numeral} {x : Binary64} (finite : x.isFinite = true)
    (nonzero : x.isZero = false) (short : numeral.allDigits.length ≤ digitLimit)
    (names : x.Names (Nat.ofDigitChars 10 numeral.allDigits 0) numeral.lastPlace) :
    numeral.float? =
      Number.ofBinary64? (Binary64.ofMagnitude numeral.negative x.magnitude) := by
  obtain ⟨zeros, fraction⟩ := exists_trailing_zeros (numeral.fraction.getD [])
  simp only [allDigits, lastPlace] at short names
  simp only [float?, significant]
  generalize ((numeral.fraction.getD []).reverse.dropWhile fun c => decide (c = '0')).reverse =
    trimmed at fraction ⊢
  rw [fraction] at short names
  rw [← List.append_assoc, Nat.ofDigitChars_append, Nat.ofDigitChars_replicate_zero, Nat.mul_comm,
    List.length_append, List.length_replicate, Binary64.names_shift,
    show numeral.exponent.getD 0 - (trimmed.length + zeros : Nat) + zeros =
      numeral.exponent.getD 0 - trimmed.length by omega] at names
  rw [← List.append_assoc, List.length_append] at short
  have few : ((numeral.whole ++ trimmed).dropWhile fun c => decide (c = '0')).length ≤
      digitLimit :=
    Nat.le_trans (List.dropWhile_sublist _).length_le (by omega)
  simp only [withinLimit, if_pos few, ofDigitChars_dropWhile_zero, Option.bind_eq_bind,
    Binary64.ofDecimal?_eq finite nonzero names, Option.bind_some]

/-- Whether a numeral shows given digits, the first of them at a given place: it counts the same
as they do, with a few zeros more. -/
structure Shows (numeral : Numeral) (digits : List Char) (place : Int) : Prop where
  proper : numeral.Proper
  pointed : (numeral.fraction.isSome || numeral.exponent.isSome) = true
  short : numeral.allDigits.length ≤ digits.length + 16
  counts : ∃ zeros : Nat,
    Nat.ofDigitChars 10 numeral.allDigits 0 = Nat.ofDigitChars 10 digits 0 * 10 ^ zeros ∧
      numeral.lastPlace = place + 1 - digits.length - zeros

/-- A text of zeros is one of digits. -/
theorem allDigits_replicate_zero (count : Nat) : AllDigits (List.replicate count '0') := by
  intro c member
  rw [List.eq_of_mem_replicate member]
  rfl

/-- The numeral with the point after the first digits. -/
def withPoint (negative : Bool) (digits : List Char) (count : Nat) (exponent : Option Int) :
    Numeral where
  negative
  whole := digits.take count ++ List.replicate (count - digits.length) '0'
  fraction := some (if (digits.drop count).isEmpty then ['0'] else digits.drop count)
  exponent

/-- A numeral with the point after the first digits shows these digits. -/
theorem shows_withPoint {digits : List Char} (nonempty : digits ≠ []) (all : AllDigits digits)
    (head : digits.head? ≠ some '0') (negative : Bool) {count : Nat} (positive : 0 < count)
    (few : count ≤ 16) (exponent : Option Int) :
    (withPoint negative digits count exponent).Shows digits (exponent.getD 0 + count - 1) := by
  obtain ⟨c, rest, rfl⟩ := List.exists_cons_of_ne_nil nonempty
  obtain ⟨count, rfl⟩ := Nat.exists_eq_add_of_lt positive
  simp only [Nat.zero_add, List.head?_cons, ne_eq, Option.some.injEq] at *
  have restDigits : AllDigits (rest.drop count) :=
    fun d member => all d (List.mem_cons_of_mem c (List.mem_of_mem_drop member))
  refine ⟨⟨by simp [withPoint], ?_, by simp [withPoint, head], ?_, ?_⟩, by simp [withPoint], ?_, ?_⟩
  · intro d member
    rcases List.mem_append.mp member with taken | zero
    · exact all d (List.mem_of_mem_take taken)
    · exact allDigits_replicate_zero _ d zero
  · intro fraction found
    rw [← Option.some.inj found, List.drop_succ_cons]
    split
    · simp
    · next some => simpa using some
  · intro fraction found
    rw [← Option.some.inj found, List.drop_succ_cons]
    split
    · exact allDigits_replicate_zero 1
    · exact restDigits
  all_goals by_cases within : count < rest.length
  · have left : (rest.drop count).isEmpty = false := by simp; omega
    simp [withPoint, allDigits, left]
    omega
  · have left : (rest.drop count).isEmpty = true := by simp; omega
    simp [withPoint, allDigits, left]
    omega
  · have left : (rest.drop count).isEmpty = false := by simp; omega
    refine ⟨0, ?_, ?_⟩
    · have none : count - rest.length = 0 := by omega
      simp [withPoint, allDigits, left, none]
    · simp [withPoint, lastPlace, left]
      omega
  · have left : (rest.drop count).isEmpty = true := by simp; omega
    have taken : rest.take count = rest := List.take_of_length_le (by omega)
    refine ⟨count - rest.length + 1, ?_, ?_⟩
    · have zeros : List.replicate (count - rest.length) '0' ++ ['0'] =
          List.replicate (count - rest.length + 1) '0' := List.replicate_succ'.symm
      simp only [withPoint, allDigits, List.take_succ_cons, List.drop_succ_cons, left, if_true,
        Option.getD_some, taken, List.length_cons, Nat.add_sub_add_right, List.append_assoc, zeros]
      rw [Nat.ofDigitChars_append, Nat.ofDigitChars_replicate_zero, Nat.mul_comm]
    · simp [withPoint, lastPlace, left]
      omega

/-- The numeral of a fraction, with the zeros between the point and its digits. -/
def belowOne (negative : Bool) (digits : List Char) (zeros : Nat) : Numeral where
  negative
  whole := ['0']
  fraction := some (List.replicate zeros '0' ++ digits)
  exponent := none

/-- A numeral below one shows its digits. -/
theorem shows_belowOne {digits : List Char} (nonempty : digits ≠ []) (all : AllDigits digits)
    (negative : Bool) {zeros : Nat} (few : zeros < 16) :
    (belowOne negative digits zeros).Shows digits (-zeros - 1) := by
  refine ⟨⟨by simp [belowOne], allDigits_replicate_zero 1, fun _ => rfl, ?_, ?_⟩, rfl, ?_, 0, ?_,
    ?_⟩
  · simp [belowOne, nonempty]
  · intro fraction found c member
    rw [← Option.some.inj found] at member
    rcases List.mem_append.mp member with zero | digit
    · exact allDigits_replicate_zero _ c zero
    · exact all c digit
  · simp [belowOne, allDigits]
    omega
  · simp only [belowOne, allDigits, Option.getD_some, Nat.pow_zero, Nat.mul_one]
    rw [Nat.ofDigitChars_append, Nat.ofDigitChars_append, Nat.ofDigitChars_replicate_zero]
    rfl
  · simp [belowOne, lastPlace]
    omega

/-- A single digit with an exponent shows itself. -/
theorem shows_single {c : Char} (digit : c.isDigit = true) (nonzero : c ≠ '0') (negative : Bool)
    (place : Int) :
    (Numeral.mk negative [c] none (some place)).Shows [c] place := by
  refine ⟨⟨by simp, ?_, by simp [nonzero], by simp, by simp⟩, rfl, ?_, 0, ?_, ?_⟩
  · simpa [AllDigits] using digit
  · simp [allDigits]
  · simp [allDigits]
  · simp [lastPlace]

/-- The text of a float is that of a numeral which shows its digits. -/
theorem exists_shows {digits : List Char} (nonempty : digits ≠ []) (all : AllDigits digits)
    (head : digits.head? ≠ some '0') (negative : Bool) (place : Int) :
    ∃ numeral : Numeral, numeral.negative = negative ∧ numeral.Shows digits place ∧
      numeral.unsignedText = Number.floatLayout.write digits place := by
  by_cases full : Number.floatLayout.leastPlain ≤ place ∧ place ≤ Number.floatLayout.greatestPlain
  · simp only [Decimal.Layout.write, if_pos full]
    simp only [Number.floatLayout] at full
    by_cases below : place < 0
    · refine ⟨belowOne negative digits (-place - 1).toNat, rfl, ?_, ?_⟩
      · have shown := shows_belowOne nonempty all negative
          (show (-place - 1).toNat < 16 by omega)
        rwa [show -((-place - 1).toNat : Int) - 1 = place by omega] at shown
      · simp [Decimal.plain, below, unsignedText, belowOne]
    · refine ⟨withPoint negative digits (place.toNat + 1) none, rfl, ?_, ?_⟩
      · have shown := shows_withPoint nonempty all head negative (Nat.succ_pos place.toNat)
          (by omega) none
        rwa [show (none : Option Int).getD 0 + (place.toNat + 1 : Nat) - 1 = place by
          simp; omega] at shown
      · simp [Decimal.plain, below, unsignedText, withPoint, Decimal.withPoint]
  · simp only [Decimal.Layout.write, if_neg full]
    by_cases single : digits.length ≤ 1
    · obtain ⟨c, rest, rfl⟩ := List.exists_cons_of_ne_nil nonempty
      have nothing : rest = [] := List.eq_nil_of_length_eq_zero (by simpa using single)
      subst nothing
      exact ⟨_, rfl, shows_single (all c List.mem_cons_self) (by simpa using head) negative place,
        by simp [unsignedText, exponentText, Decimal.scientific]⟩
    · refine ⟨withPoint negative digits 1 (some place), rfl, ?_, ?_⟩
      · have shown := shows_withPoint nonempty all head negative Nat.one_pos (by decide)
          (some place)
        rwa [show (some place).getD 0 + ((1 : Nat) : Int) - 1 = place by simp] at shown
      · simp [unsignedText, withPoint, Decimal.withPoint, Decimal.scientific, single, exponentText]

end Numeral

namespace Number

/-- The text of an integer is that of a numeral which names the integer. -/
theorem exists_integer_numeral (value : Int) (fits : FitsWord value) :
    ∃ numeral : Numeral, numeral.Proper ∧ numeral.text = write (.integer value fits) ∧
      numeral.number? = some (.integer value fits) := by
  have proper : (Numeral.mk (value < 0) (Nat.toDigits 10 value.natAbs) none none).Proper := by
    refine ⟨Nat.toDigits_ne_nil, allDigits_toDigits _, fun zero => ?_, by simp, by simp⟩
    by_cases positive : 0 < value.natAbs
    · exact absurd zero (head?_toDigits_ne positive)
    · rw [show value.natAbs = 0 by omega]
      rfl
  have written : (Numeral.mk (value < 0) (Nat.toDigits 10 value.natAbs) none none).text =
      write (.integer value fits) := by
    by_cases negative : value < 0
    · simp [write, Numeral.text, Numeral.unsignedText, negative]
    · simp [write, Numeral.text, Numeral.unsignedText, negative]
  refine ⟨_, proper, written, ?_⟩
  have low := fits.1
  have high := fits.2
  by_cases negative : value < 0
  · have magnitude : 0 < value.natAbs ∧ value.natAbs ≤ 0x8000000000000000 := by omega
    have same : -(value.natAbs : Int) = value := by omega
    simp only [Numeral.number?, negative, Option.isSome_none, Bool.or_self, Bool.false_eq_true,
      if_false, Nat.ofDigitChars_ten_toDigits, decide_true, if_true, if_pos magnitude, same,
      ofInt?, dif_pos fits]
  · have same : (value.natAbs : Int) = value := by omega
    simp only [Numeral.number?, negative, Option.isSome_none, Bool.or_self, Bool.false_eq_true,
      if_false, Nat.ofDigitChars_ten_toDigits, decide_false, same, ofInt?, dif_pos fits]
    rfl

/-- A finite double has a number. -/
theorem ofBinary64?_of_finite {value : Binary64} (finite : value.isFinite = true) :
    ofBinary64? value = some (.float value finite) :=
  dif_pos finite

/-- The text of a float is that of a numeral which is read as the float. -/
theorem exists_float_numeral (value : Binary64) (finite : value.isFinite = true) :
    ∃ numeral : Numeral, numeral.Proper ∧ numeral.text = write (.float value finite) ∧
      (numeral.fraction.isSome || numeral.exponent.isSome) = true ∧
      numeral.float? = some (.float value finite) := by
  by_cases zero : value.isZero = true
  · refine ⟨⟨value.isNegative, ['0'], some ['0'], none⟩, ?_, ?_, rfl, ?_⟩
    · exact ⟨by simp, Numeral.allDigits_replicate_zero 1, fun _ => rfl, by simp,
        fun fraction found => Option.some.inj found ▸ Numeral.allDigits_replicate_zero 1⟩
    · simp [Numeral.text, Numeral.unsignedText, write, writeFloat, zero]
    · have magnitude : value.magnitude = 0 := by simpa [Binary64.isZero] using zero
      have same := Binary64.ofMagnitude_magnitude value
      rw [magnitude] at same
      calc Numeral.float? ⟨value.isNegative, ['0'], some ['0'], none⟩
          = ofBinary64? (Binary64.ofMagnitude value.isNegative 0) := rfl
        _ = some (.float value finite) := by rw [same, ofBinary64?_of_finite finite]
  · have nonzero : value.isZero = false := by simpa using zero
    obtain ⟨names, bounded⟩ := Binary64.shortest_names finite nonzero
    have positive := names.coefficient_pos nonzero
    have few : (Nat.toDigits 10 value.shortest.coefficient).length ≤ 26 :=
      (Nat.length_toDigits_le_iff (by decide) (by decide)).mpr bounded
    obtain ⟨numeral, sign, shown, text⟩ := Numeral.exists_shows Nat.toDigits_ne_nil
      (allDigits_toDigits value.shortest.coefficient) (head?_toDigits_ne positive)
      value.isNegative (value.shortest.exponent +
        (Nat.toDigits 10 value.shortest.coefficient).length - 1)
    obtain ⟨zeros, digits, place⟩ := shown.counts
    refine ⟨numeral, shown.proper, ?_, shown.pointed, ?_⟩
    · simp [Numeral.text, write, writeFloat, nonzero, sign, text]
    · have exponent : numeral.lastPlace + zeros = value.shortest.exponent := by omega
      have short : numeral.allDigits.length ≤ Numeral.digitLimit :=
        Nat.le_trans shown.short (by unfold Numeral.digitLimit; omega)
      rw [Numeral.float?_eq finite nonzero short, sign, Binary64.ofMagnitude_magnitude,
        ofBinary64?_of_finite finite]
      rwa [digits, Nat.ofDigitChars_ten_toDigits, Binary64.names_shift, exponent]

/-- The text of a number is that of a numeral which names the number. -/
theorem exists_numeral (number : Number) :
    ∃ numeral : Numeral, numeral.Proper ∧ numeral.text = number.write ∧
      numeral.number? = some number := by
  cases number with
  | integer value fits => exact exists_integer_numeral value fits
  | float value finite =>
      obtain ⟨numeral, proper, text, pointed, named⟩ := exists_float_numeral value finite
      exact ⟨numeral, proper, text, by rw [Numeral.number?, if_pos pointed, named]⟩

end Number

end TableStore
