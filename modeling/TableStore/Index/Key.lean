/-
# Index keys

The scalar values of a column, in the order in which an index lists them: null, the truth
values, integers, floats and strings. Two scalars that are equal as values have one key, so
negative zero shares the key of zero; an integer and a float never do.
-/

import TableStore.Json.Basic

namespace TableStore

/-- A scalar value as an index knows it. -/
inductive IndexKey where
  | null
  | bool (value : Bool)
  /-- An integer of a signed word. -/
  | int (value : Int64)
  /-- An integer above every signed word. -/
  | uint (value : UInt64)
  /-- A float, by its rank: a pattern that grows with the number. -/
  | float (rank : UInt64)
  | string (value : String)
  deriving DecidableEq, Repr

namespace IndexKey

/-- The place of the key's class in the order of classes. -/
def classRank : IndexKey → Nat
  | .null => 0
  | .bool _ => 1
  | .int _ => 2
  | .uint _ => 3
  | .float _ => 4
  | .string _ => 5

/-- What orders the keys of one class, where they are ordered by a number. -/
def quantity : IndexKey → Int
  | .null => 0
  | .bool value => value.toNat
  | .int value => value.toInt
  | .uint value => value.toNat
  | .float rank => rank.toNat
  | .string _ => 0

/-- What orders the keys of one class, where they are ordered as text. -/
def text : IndexKey → String
  | .string value => value
  | _ => ""

/-- Keys are ordered by class, and within a class by number or by text. -/
instance : Ord IndexKey :=
  ⟨compareLex (compareOn classRank) (compareLex (compareOn quantity) (compareOn text))⟩

instance : Std.TransOrd IndexKey :=
  inferInstanceAs (Std.TransCmp
    (compareLex (compareOn classRank) (compareLex (compareOn quantity) (compareOn text))))

/-- A key is known by its class, its number and its text. -/
theorem eq_of_parts {x y : IndexKey} (rank : x.classRank = y.classRank)
    (number : x.quantity = y.quantity) (text : x.text = y.text) : x = y := by
  cases x <;> cases y <;> simp_all [classRank, quantity, IndexKey.text]
  case bool.bool x y => cases x <;> cases y <;> simp_all
  case int.int => exact Int64.toInt_inj.mp number
  case uint.uint => exact UInt64.toNat_inj.mp (by omega)
  case float.float => exact UInt64.toNat_inj.mp (by omega)

instance : Std.LawfulEqOrd IndexKey where
  eq_of_compare {x y} equal := by
    obtain ⟨rank, rest⟩ := compareLex_eq_eq.mp equal
    obtain ⟨number, text⟩ := compareLex_eq_eq.mp rest
    exact eq_of_parts (Std.LawfulEqOrd.eq_of_compare rank) (Std.LawfulEqOrd.eq_of_compare number)
      (Std.LawfulEqOrd.eq_of_compare text)

/-- The rank of a float: a positive pattern is lifted above the negative ones, and among
negative patterns the order of magnitudes is turned round. -/
def rankOf (value : Binary64) : UInt64 :=
  if value.isNegative then ~~~value.bits else value.bits ^^^ 0x8000000000000000

/-- The float of a rank. -/
def ofRank (rank : UInt64) : Binary64 :=
  if 0x8000000000000000 ≤ rank then ⟨rank ^^^ 0x8000000000000000⟩ else ⟨~~~rank⟩

/-- The key of a float; both zeros have the key of the positive one. -/
def ofBinary64 (value : Binary64) : IndexKey :=
  .float (rankOf (if value.isZero then ⟨0⟩ else value))

/-- The key of a number. -/
def ofNumber : Number → IndexKey
  | .integer value _ =>
      if value < 0x8000000000000000 then .int (Int64.ofInt value)
      else .uint (UInt64.ofNat value.toNat)
  | .float value _ => ofBinary64 value

/-- The key of a value; arrays and objects have none. -/
def ofJson? : Json → Option IndexKey
  | .null => some .null
  | .bool value => some (.bool value)
  | .number value => some (ofNumber value)
  | .string value => some (.string value)
  | .array _ => none
  | .object _ => none

/-- The value of a key. -/
def toJson : IndexKey → Json
  | .null => .null
  | .bool value => .bool value
  | .int value => .number (.ofInt64 value)
  | .uint value => .number (.ofUInt64 value)
  | .float rank => .ofBinary64 (ofRank rank)
  | .string value => .string value

end IndexKey

end TableStore
