/-
# JSON as written

The grammar of JSON, without the limits that come with giving every part a value: a source tree
may be nested to any depth, repeat the keys of an object, and hold strings and numerals that
denote nothing. It is built from tokens by a machine that keeps the open arrays and objects on a
stack.
-/

import TableStore.Json.Token

namespace TableStore.Json

/-- A JSON text, as written. -/
inductive Source where
  | null
  | bool (value : Bool)
  | number (value : Option Number)
  | string (value : Option String)
  | array (items : List Source)
  | object (members : List (Option String × Source))

namespace Source

/-- An array or object that waits for the value being read. Lists are reversed. -/
inductive Frame where
  /-- An array, with the items before the value. -/
  | array (items : List Source)
  /-- An object, with the members before the value and the key of the value. -/
  | member (members : List (Option String × Source)) (key : Option String)

/-- What may come next. -/
inductive Expectation where
  /-- A value. -/
  | value
  /-- A value, or the end of the array just opened. -/
  | firstItem
  /-- A key, or the end of the object just opened. -/
  | firstKey
  /-- A key, after a comma. -/
  | key (members : List (Option String × Source))
  /-- The colon after a key. -/
  | colon (members : List (Option String × Source)) (key : Option String)
  /-- What follows a complete value. -/
  | done (value : Source)

/-- The open arrays and objects, innermost first, and what may come next. -/
abbrev State :=
  List Frame × Expectation

/-- The token that starts a value. -/
def startValue (stack : List Frame) : Token → Option State
  | .null => some (stack, .done .null)
  | .bool value => some (stack, .done (.bool value))
  | .number value => some (stack, .done (.number value))
  | .string value => some (stack, .done (.string value))
  | .openArray => some (.array [] :: stack, .firstItem)
  | .openObject => some (stack, .firstKey)
  | _ => none

/-- The token after a complete value, by the frame around it. -/
def afterValue (value : Source) : List Frame → Token → Option State
  | .array items :: stack, .comma => some (.array (value :: items) :: stack, .value)
  | .array items :: stack, .closeArray => some (stack, .done (.array (value :: items).reverse))
  | .member members key :: stack, .comma => some (stack, .key ((key, value) :: members))
  | .member members key :: stack, .closeObject =>
      some (stack, .done (.object ((key, value) :: members).reverse))
  | _, _ => none

/-- One token. -/
def step : State → Token → Option State
  | (stack, .value), token => startValue stack token
  | (.array [] :: stack, .firstItem), .closeArray => some (stack, .done (.array []))
  | (stack, .firstItem), token => startValue stack token
  | (stack, .firstKey), .closeObject => some (stack, .done (.object []))
  | (stack, .firstKey), .string key => some (stack, .colon [] key)
  | (stack, .key members), .string key => some (stack, .colon members key)
  | (stack, .colon members key), .colon => some (.member members key :: stack, .value)
  | (stack, .done value), token => afterValue value stack token
  | _, _ => none

/-- The tree of a sequence of tokens, which must be exactly one value. -/
def ofTokens? (tokens : List Token) : Option Source :=
  match tokens.foldlM step ([], .value) with
  | some ([], .done value) => some value
  | _ => none

end Source

end TableStore.Json
