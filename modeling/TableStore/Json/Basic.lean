/-
# JSON values

The values that rows hold and files are made of. The members of an object keep the order in
which they were written.
-/

import TableStore.Json.Number

namespace TableStore

/-- A JSON value. -/
inductive Json where
  | null
  | bool (value : Bool)
  | number (value : Number)
  | string (value : String)
  | array (items : List Json)
  | object (members : List (String × Json))

namespace Json

/-- Whether a value is neither an array nor an object. -/
def isScalar : Json → Bool
  | .array _ => false
  | .object _ => false
  | _ => true

mutual

/-- Equality of values, under which the order of an object's members does not matter. -/
def same : Json → Json → Bool
  | .null, .null => true
  | .bool x, .bool y => x == y
  | .number x, .number y => x.same y
  | .string x, .string y => x == y
  | .array xs, .array ys => sameItems xs ys
  | .object xs, .object ys => xs.length == ys.length && sameMembers xs ys
  | _, _ => false

/-- Equality of arrays, item by item. -/
def sameItems : List Json → List Json → Bool
  | [], [] => true
  | x :: xs, y :: ys => same x y && sameItems xs ys
  | _, _ => false

/-- Whether every member of one object is found in the other. -/
def sameMembers : List (String × Json) → List (String × Json) → Bool
  | [], _ => true
  | (key, x) :: rest, others =>
      (match others.lookup key with
        | some y => same x y
        | none => false) && sameMembers rest others

end

/-- A float as a value; what is not finite has no number and becomes null. -/
def ofBinary64 (value : Binary64) : Json :=
  match Number.ofBinary64? value with
  | some finite => .number finite
  | none => .null

/-- A count as a value. -/
def ofUInt64 (value : UInt64) : Json :=
  .number (.ofUInt64 value)

/-- A string or its absence as a value. -/
def ofString? : Option String → Json
  | some value => .string value
  | none => .null

/-- Strings as an array. -/
def ofStrings (values : List String) : Json :=
  .array (values.map .string)

end Json

end TableStore
