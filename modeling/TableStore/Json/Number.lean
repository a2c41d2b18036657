/-
# Numbers in JSON

A JSON number is an integer of a 64-bit word, signed or unsigned, or a finite double. Which of
the two it is depends on how it is written, never on its value: `20` and `20.0` are different
numbers. A numeral is the text of a number; every numeral names a number unless it overflows.
-/

import TableStore.Binary64.Nearest
import TableStore.Binary64.Shortest
import TableStore.Decimal.Layout

namespace TableStore

/-- Whether an integer fits a 64-bit word, signed or unsigned. -/
abbrev FitsWord (value : Int) : Prop :=
  -0x8000000000000000 ≤ value ∧ value < 0x10000000000000000

/-- A number of JSON. -/
inductive Number where
  /-- An integer that fits a word. -/
  | integer (value : Int) (fits : FitsWord value)
  /-- A finite double. -/
  | float (value : Binary64) (finite : value.isFinite = true)
  deriving DecidableEq

namespace Number

/-- Numeric equality within integers and within floats; an integer never equals a float. -/
def same : Number → Number → Bool
  | .integer m _, .integer n _ => m == n
  | .float x _, .float y _ => x.same y
  | _, _ => false

/-- The integer with a given value, if it fits a word. -/
def ofInt? (value : Int) : Option Number :=
  if fits : FitsWord value then some (.integer value fits) else none

/-- The float with a given pattern, if it is finite. -/
def ofBinary64? (value : Binary64) : Option Number :=
  if finite : value.isFinite = true then some (.float value finite) else none

/-- An unsigned word as a number. -/
def ofUInt64 (value : UInt64) : Number :=
  .integer value.toNat (by have := value.toNat_lt; unfold FitsWord; omega)

/-- A signed word as a number. -/
def ofInt64 (value : Int64) : Number :=
  .integer value.toInt (by have := value.le_toInt; have := value.toInt_lt; unfold FitsWord; omega)

end Number

/-- The text of a number, taken apart. -/
structure Numeral where
  negative : Bool
  /-- The digits before the point. -/
  whole : List Char
  /-- The digits after the point, if there is one. -/
  fraction : Option (List Char)
  /-- The power of ten, if one is written. -/
  exponent : Option Int
  deriving DecidableEq

namespace Numeral

/-- The digits at the start of a text and what follows them, if there is at least one. -/
def digits? (text : List Char) : Option (List Char × List Char) :=
  let digits := text.takeWhile Char.isDigit
  if digits.isEmpty then none else some (digits, text.dropWhile Char.isDigit)

/-- The sign and digits of an exponent, which must be all of the text. -/
def exponent? (text : List Char) : Option Int :=
  let (negative, text) :=
    match text with
    | '-' :: rest => (true, rest)
    | '+' :: rest => (false, rest)
    | rest => (false, rest)
  match digits? text with
  | some (digits, []) =>
      let value : Int := Nat.ofDigitChars 10 digits 0
      some (if negative then -value else value)
  | _ => none

/-- Read a numeral: no superfluous zero in front, and a digit on each side of a point. -/
def read? (text : List Char) : Option Numeral := do
  let (negative, text) :=
    match text with
    | '-' :: rest => (true, rest)
    | rest => (false, rest)
  let (whole, text) ← digits? text
  if whole.head? = some '0' ∧ whole ≠ ['0'] then none
  let (fraction, text) ←
    match text with
    | '.' :: rest => (digits? rest).map fun (digits, rest) => (some digits, rest)
    | rest => some (none, rest)
  let exponent ←
    match text with
    | [] => some none
    | c :: rest => if c = 'e' ∨ c = 'E' then (exponent? rest).map some else none
  return { negative, whole, fraction, exponent }

/-- How many digits are told apart. No number halfway between two doubles has more of them, apart
from zeros at its end. -/
def digitLimit : Nat :=
  768

/-- The digits from the first that is not zero, without zeros at the end of the fraction, and the
power of ten that they count. -/
def significant (numeral : Numeral) : List Char × Int :=
  let isZero : Char → Bool := fun c => c = '0'
  let fraction := ((numeral.fraction.getD []).reverse.dropWhile isZero).reverse
  ((numeral.whole ++ fraction).dropWhile isZero,
    numeral.exponent.getD 0 - fraction.length)

/-- Digits and a power of ten, the digits beyond the limit cut off. A one stands for all that is
cut off, which keeps the number between the same doubles and on the same side of the middle
between them. Zeros before the point count like other digits: a middle that is written out beyond
the limit is taken for more than that. -/
def withinLimit (digits : List Char) (exponent : Int) : List Char × Int :=
  if digits.length ≤ digitLimit then (digits, exponent)
  else
    (digits.take digitLimit ++ ['1'], exponent + (digits.length - (digitLimit + 1) : Nat))

/-- The double nearest to the numeral. -/
def float? (numeral : Numeral) : Option Number := do
  let (digits, exponent) := numeral.significant
  let (digits, exponent) := withinLimit digits exponent
  let value ← Binary64.ofDecimal? numeral.negative (Nat.ofDigitChars 10 digits 0) exponent
  Number.ofBinary64? value

/-- The number that a numeral names. A numeral without point and exponent is an integer if it
fits a word, except that negative zero has no integer; all others are floats, and name nothing
when they exceed the largest double. -/
def number? (numeral : Numeral) : Option Number :=
  if numeral.fraction.isSome || numeral.exponent.isSome then numeral.float?
  else
    let value := Nat.ofDigitChars 10 numeral.whole 0
    if numeral.negative then
      if 0 < value ∧ value ≤ 0x8000000000000000 then Number.ofInt? (-value) else numeral.float?
    else
      (Number.ofInt? value).or numeral.float?

end Numeral

namespace Number

/-- Floats are written in full from `0.00001` up to the last number below `1e+16`. -/
def floatLayout : Decimal.Layout where
  leastPlain := -5
  greatestPlain := 15

/-- The digits of a float without its sign. -/
def writeFloat (value : Binary64) : List Char :=
  if value.isZero then ['0', '.', '0']
  else
    let decimal := value.shortest
    let digits := Nat.toDigits 10 decimal.coefficient
    floatLayout.write digits (decimal.exponent + digits.length - 1)

/-- The text of a number. -/
def write : Number → List Char
  | .integer value _ =>
      if value < 0 then '-' :: Nat.toDigits 10 value.natAbs else Nat.toDigits 10 value.natAbs
  | .float value _ => if value.isNegative then '-' :: writeFloat value else writeFloat value

end Number

end TableStore
