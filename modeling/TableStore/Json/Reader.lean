/-
# Values from JSON text

A source tree has a value when its strings and numerals have one and its arrays and objects are
nested no deeper than the limit. A key that an object repeats keeps its first place and takes
its last value.
-/

import TableStore.Json.Source
import TableStore.Text.Utf8

namespace TableStore.Json

/-- Give a key its value: in its place if the key is there, else at the end. -/
def setMember (key : String) (value : Json) : List (String × Json) → List (String × Json)
  | [] => [(key, value)]
  | (other, old) :: rest =>
      if other = key then (key, value) :: rest else (other, old) :: setMember key value rest

/-- How many arrays and objects may be open at once. -/
def depthLimit : Nat :=
  127

namespace Source

mutual

/-- The value of a source tree with at most `depth` levels of arrays and objects. -/
def value? : (depth : Nat) → Source → Option Json
  | _, .null => some .null
  | _, .bool value => some (.bool value)
  | _, .number value => value.map .number
  | _, .string value => value.map .string
  | depth + 1, .array items => (itemValues? depth items).map .array
  | depth + 1, .object members => (memberValues? depth [] members).map .object
  | 0, .array _ => none
  | 0, .object _ => none

/-- The values of the items of an array. -/
def itemValues? : (depth : Nat) → List Source → Option (List Json)
  | _, [] => some []
  | depth, item :: rest => do
      let value ← value? depth item
      let values ← itemValues? depth rest
      return value :: values

/-- The members of an object, added to those already read. -/
def memberValues? : (depth : Nat) → List (String × Json) → List (Option String × Source) →
    Option (List (String × Json))
  | _, members, [] => some members
  | depth, members, (key, source) :: rest => do
      let key ← key
      let value ← value? depth source
      memberValues? depth (setMember key value members) rest

end

/-- The string that a source tree is. -/
def string? : Source → Option String
  | .string value => value
  | _ => none

/-- Read a text as a source tree. -/
def ofText? (text : List (Option Char)) : Option Source :=
  (Token.scan? text).bind ofTokens?

/-- Read a file as a source tree. -/
def ofBytes? (bytes : Bytes) : Option Source :=
  ofText? (Utf8.decode bytes)

/-- Collect named fields from the members of an object: the source of each field that occurs.
A repeated field is refused; members under other keys are passed over. -/
def fields? (names : List String) :
    List (Option String × Source) → Option (List (String × Source))
  | [] => some []
  | (key, source) :: rest => do
      let key ← key
      let others ← fields? names rest
      if !names.contains key then return others
      else if (others.lookup key).isSome then none
      else return (key, source) :: others

/-- Read a record, whose fields are given either by name or, in order, as an array. Nothing is
said about fields that are missing. -/
def record? (names : List String) : Source → Option (List (String × Source))
  | .object members => fields? names members
  | .array items => if items.length ≤ names.length then some (names.zip items) else none
  | _ => none

end Source

/-- Read a text as a value. -/
def read? (text : List (Option Char)) : Option Json :=
  (Source.ofText? text).bind (Source.value? depthLimit)

/-- Read a string as a value. -/
def ofText? (text : String) : Option Json :=
  read? (text.toList.map some)

/-- Read a file as a value. -/
def ofBytes? (bytes : Bytes) : Option Json :=
  read? (Utf8.decode bytes)

end TableStore.Json
